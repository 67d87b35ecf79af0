import KnitOS.Net.Sockets
import KnitOS.Net.TcpFlow

/-!
# Orderly close

`tcp_close` ends the stream with a FIN, waits for the peer and gives the slot
back.  The FIN is sent in ESTABLISHED only: after the FIN of the peer the slot
is given back without one.
-/

namespace KnitOS.Net

open Lib

/-! ## `tcp_close` -/

/-- The segments that one round of the loop finds in `nic_process_packets` and
those that arrive in `net_wait_ms`. -/
structure CloseRound where
  polled : List Segment
  waited : List Segment

/-- A segment, or the timers. -/
def closeStep (endpoint : Endpoint) : Option Segment → Endpoint
  | some segment => handleSegment segment endpoint
  | none => processTimers endpoint

/-- What happens in the loop of `tcp_close`, in the last `count` rounds. -/
def closeLoop (rounds : Nat → CloseRound) : Nat → Endpoint → List (Option Segment)
  | 0, _ => []
  | count + 1, endpoint =>
    let polled := (rounds count).polled.map some ++ [none]
    let next := runFrom closeStep endpoint polled
    if next.conn.valid = false ∨ next.conn.state = .finWait2 ∨ next.conn.state = .closed then
      polled
    else
      let waited := (rounds count).waited.map some
      polled ++ (waited ++ closeLoop rounds count (runFrom closeStep next waited))

/-- The start of `tcp_close` and what happens before the slot is given back. -/
def closeStart (rounds : Nat → CloseRound) (endpoint : Endpoint) :
    Endpoint × List (Option Segment) :=
  if endpoint.conn.state = .established then
    (Stack.sendFin endpoint, closeLoop rounds 50 (Stack.sendFin endpoint))
  else
    (endpoint, [])

def tcpClose (rounds : Nat → CloseRound) (endpoint : Endpoint) : Endpoint :=
  let (started, events) := closeStart rounds endpoint
  let last := runFrom closeStep started events
  if last.conn.valid then last.setConn (tcpConnectionClose last.conn) else last

/-- Among the segments behind the first `earlier` on the wire there is a FIN with
this number. -/
def FinSent (earlier : Nat) (number : UInt32) (endpoint : Endpoint) : Prop :=
  ∃ outgoing ∈ endpoint.wire.drop earlier, outgoing.segment.has tcpFlagFin = true ∧
    outgoing.segment.seqNum = number

/-- `tcp_close` sends a FIN that follows all data before the slot is invalid. -/
structure ClosesOrderly (isn : UInt32) (rounds : Nat → CloseRound) (flow : Flow) : Prop where
  during : ∀ events, events <+: (closeStart rounds flow.endpoint).2 →
    (runFrom closeStep (closeStart rounds flow.endpoint).1 events).conn.valid = false →
      FinSent flow.endpoint.wire.length (isn + UInt32.ofNat flow.sent)
        (runFrom closeStep (closeStart rounds flow.endpoint).1 events)
  after : FinSent flow.endpoint.wire.length (isn + UInt32.ofNat flow.sent)
    (tcpClose rounds flow.endpoint)

/-! ## Segments stay on the wire -/

variable {earlier : Nat} {number : UInt32}

theorem FinSent.setConn {endpoint : Endpoint} (sent : FinSent earlier number endpoint)
    (conn : Conn) :
    FinSent earlier number (endpoint.setConn conn) :=
  sent

theorem FinSent.tcpSend {endpoint : Endpoint} (sent : FinSent earlier number endpoint)
    (seqNum ackNum : UInt32) (flags : UInt8) (payload : List UInt8) :
    FinSent earlier number (endpoint.tcpSend seqNum ackNum flags payload) := by
  obtain ⟨outgoing, member, isFin⟩ := sent
  unfold Endpoint.tcpSend
  split
  · exact ⟨outgoing, member, isFin⟩
  · refine ⟨outgoing, ?_, isFin⟩
    rw [List.drop_append]
    exact List.mem_append_left _ member

theorem FinSent.handleSegment {endpoint : Endpoint} (sent : FinSent earlier number endpoint)
    (segment : Segment) : FinSent earlier number (handleSegment segment endpoint) := by
  have control : FinSent earlier number (handleControl segment endpoint) := by
    unfold handleControl handleSyn
    split
    · split
      · exact (sent.setConn _).tcpSend _ _ _ _
      · exact sent
    · split <;> exact sent
  have data : FinSent earlier number (handleData segment (handleControl segment endpoint)) := by
    simp only [handleData]
    split
    · exact (control.setConn _).tcpSend _ _ _ _
    · exact control
  unfold Net.handleSegment
  split
  · exact sent
  · simp only [handleFin]
    split
    · split
      · exact (data.setConn _).tcpSend _ _ _ _
      · split
        · exact (data.setConn _).tcpSend _ _ _ _
        · exact data
    · exact data

theorem FinSent.timerEntries : ∀ (queue : List Queued) {endpoint : Endpoint},
    FinSent earlier number endpoint → FinSent earlier number (timerEntries queue endpoint).2
  | [], _, sent => sent
  | entry :: rest, endpoint, sent => by
    have first : FinSent earlier number (timerEntry entry endpoint).2 := by
      have read : FinSent earlier number endpoint.tick := sent
      simp only [timerEntry]
      split
      · split
        · exact read.tcpSend _ _ _ _
        · exact sent
      · exact sent
    exact FinSent.timerEntries rest first

theorem FinSent.step (endpoint : Endpoint) (event : Option Segment)
    (sent : FinSent earlier number endpoint) :
    FinSent earlier number (closeStep endpoint event) := by
  cases event with
  | some segment => exact sent.handleSegment segment
  | none =>
    simp only [closeStep, processTimers]
    split
    · exact FinSent.timerEntries _ sent
    · exact sent

/-! ## Where the data ends -/

/-- `send_seq` is the initial number and what was sent, the SYN included. -/
def Numbered (isn : UInt32) (flow : Flow) : Prop :=
  flow.endpoint.conn.sendSeq = isn + UInt32.ofNat flow.sent

theorem Numbered.step {isn : UInt32} (flow : Flow) (event : TcpEvent)
    (numbered : Numbered isn flow) : Numbered isn (flow.step event) := by
  unfold Numbered at *
  cases event with
  | arrive segment =>
    refine (handleSegment_sending segment flow.endpoint).sendSeq.trans (.trans ?_ numbered)
    split
    · obtain ⟨_, _, _, _, _, _, isAck⟩ := handleAck_eq segment flow.endpoint.conn
      rw [isAck]
    · rfl
  | sendData data =>
    rcases tcpSendData_cases data flow.endpoint with ⟨refused, _⟩ | ⟨_, _, ready, isReady, sent, _⟩
    · simp only [Flow.step, TcpEvent.apply, refused, Option.getD_none, Nat.add_zero]
      exact numbered
    · obtain ⟨_, _, _, isNext⟩ := sendLoop_eq data.length data ready
      simp only [Flow.step, TcpEvent.apply, sent, Option.getD_some, isNext, isReady, numbered,
        UInt32.ofNat_add, UInt32.add_assoc]
  | receive maxLen => exact numbered
  | timers =>
    obtain ⟨_, _, _, isNext, _⟩ := processTimers_eq flow.endpoint
    simp only [Flow.step, TcpEvent.apply, isNext]
    exact numbered

/-! ## Runs -/

/-- In a state other than ESTABLISHED `tcp_close` sends nothing. -/
theorem tcpClose_wire {rounds : Nat → CloseRound} {endpoint : Endpoint}
    (other : endpoint.conn.state ≠ .established) :
    (tcpClose rounds endpoint).wire = endpoint.wire := by
  have starts : closeStart rounds endpoint = (endpoint, []) := if_neg other
  unfold tcpClose
  rw [starts]
  dsimp only
  split
  · rfl
  · rfl

end KnitOS.Net
