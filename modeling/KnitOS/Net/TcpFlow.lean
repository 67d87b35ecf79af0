import KnitOS.Net.TcpEvents

/-!
# Flow control

`tcp_send_data` subtracts `send_seq - send_una` from the windows before it
compares anything.  The run is followed with two counters that never wrap and a
record of every data segment.
-/

namespace KnitOS.Net

open Lib

/-- A data segment with the connection as it was before the transmission. -/
structure Transmission where
  conn : Conn
  chunk : List UInt8

/-- The segment ends within both windows, measured from `send_una`. -/
def Transmission.Within (transmission : Transmission) : Prop :=
  let finish := transmission.conn.outstanding.toNat +
    transmission.chunk.length
  finish ≤ transmission.conn.sendWindow.toNat ∧
    finish ≤ transmission.conn.cwnd.toNat

instance (transmission : Transmission) : Decidable transmission.Within :=
  inferInstanceAs (Decidable (_ ∧ _))

/-- The segments of the loop of `tcp_send_data`. -/
def loopTransmissions : Nat → List UInt8 → Endpoint → List Transmission
  | 0, _, _ => []
  | rounds + 1, data, endpoint =>
    if data = [] ∨ windowAvailable endpoint.conn = 0 ∨
        cwndAvailable endpoint.conn = 0 then
      []
    else
      let chunk := nextChunk endpoint.conn data
      ⟨endpoint.conn, chunk⟩ ::
        loopTransmissions rounds (data.drop chunk.length)
          (transmit chunk endpoint)

/-- The segments of a call to `tcp_send_data`. -/
def transmissions (data : List UInt8) (endpoint : Endpoint) : List Transmission :=
  match tcpConnectionSend endpoint.conn data with
  | none => []
  | some conn => loopTransmissions data.length data (endpoint.setConn conn)

/-- What a transmission puts on the wire. -/
def Transmission.outgoing (transmission : Transmission) : List Outgoing :=
  (Endpoint.tcpSend transmission.conn.sendSeq transmission.conn.recvSeq
    (tcpFlagAck ||| tcpFlagPsh) transmission.chunk
    ⟨transmission.conn, fun _ => 0, 0, []⟩).wire

theorem transmit_wire (chunk : List UInt8) (endpoint : Endpoint) :
    (transmit chunk endpoint).wire =
      endpoint.wire ++ Transmission.outgoing ⟨endpoint.conn, chunk⟩ := by
  have queued : ∀ (seq : UInt32) (sent : Endpoint),
      (tcpAddRetransmit seq chunk sent).wire = sent.wire := by
    intro seq sent
    unfold tcpAddRetransmit
    split
    · rfl
    · rfl
  change (tcpAddRetransmit _ chunk _).wire = _
  rw [queued]
  unfold Transmission.outgoing Endpoint.tcpSend
  split
  · exact (List.append_nil _).symm
  · rfl

theorem sendLoop_wire (rounds : Nat) (data : List UInt8) (endpoint : Endpoint) :
    (sendLoop rounds data endpoint).2.wire =
      endpoint.wire ++ (loopTransmissions rounds data endpoint).flatMap Transmission.outgoing := by
  induction rounds generalizing data endpoint with
  | zero => exact (List.append_nil _).symm
  | succ rounds ih =>
    unfold sendLoop loopTransmissions
    split
    · exact (List.append_nil _).symm
    · dsimp only
      rw [ih, transmit_wire, List.flatMap_cons, List.append_assoc]

/-- The record has the segments that the call puts on the wire. -/
theorem tcpSendData_wire (data : List UInt8) (endpoint : Endpoint) :
    (tcpSendData data endpoint).2.wire =
      endpoint.wire ++ (transmissions data endpoint).flatMap Transmission.outgoing := by
  unfold tcpSendData transmissions
  cases tcpConnectionSend endpoint.conn data with
  | none => exact (List.append_nil _).symm
  | some conn => exact sendLoop_wire data.length data (endpoint.setConn conn)

/-- A run with its counters. -/
structure Flow where
  endpoint : Endpoint
  sent : Nat
  acked : Nat
  log : List Transmission

namespace Flow

/-- The SYN is sent and not acknowledged. -/
def start (endpoint : Endpoint) : Flow := ⟨endpoint, 1, 0, []⟩

def step (flow : Flow) (event : TcpEvent) : Flow :=
  let next := event.apply flow.endpoint
  match event with
  | .arrive _ =>
    { flow with
      endpoint := next
      acked := flow.acked +
        (next.conn.sendUna - flow.endpoint.conn.sendUna).toNat }
  | .sendData data =>
    { flow with
      endpoint := next
      sent := flow.sent + ((tcpSendData data flow.endpoint).1.getD 0)
      log := flow.log ++ transmissions data flow.endpoint }
  | _ => { flow with endpoint := next }

/-- What is outstanding is what was sent and not acknowledged, and every
segment was within the windows. -/
def Bounded (flow : Flow) : Prop :=
  flow.acked + flow.endpoint.conn.outstanding.toNat = flow.sent ∧
    ∀ transmission ∈ flow.log, transmission.Within

instance (flow : Flow) : Decidable flow.Bounded :=
  inferInstanceAs (Decidable (_ ∧ _))

/-- No acknowledgement of unsent data, no transmission after the peer took
back a part of its window, and a congestion window that cannot wrap. -/
def Permits (flow : Flow) : TcpEvent → Prop
  | .arrive segment =>
    segment.acknowledges = true →
    flow.endpoint.conn.sendUna < segment.ackNum →
      segment.ackNum - flow.endpoint.conn.sendUna ≤
          flow.endpoint.conn.outstanding ∧
        flow.endpoint.conn.cwnd.toNat + 2 ^ 18 ≤ 2 ^ 32
  | .sendData data =>
    flow.endpoint.conn.state = .established →
    data ≠ [] →
    flow.endpoint.conn.txBuffer.length + data.length ≤ tcpTxBufferSize →
      flow.endpoint.conn.outstanding ≤
          flow.endpoint.conn.sendWindow.toUInt32 ∧
        flow.endpoint.conn.cwnd.toNat + 2 ^ 18 ≤ 2 ^ 32
  | _ => True

instance Permits.decide (flow : Flow) : ∀ event, Decidable (flow.Permits event)
  | .arrive _ => inferInstanceAs (Decidable (_ → _ → _ ∧ _))
  | .sendData _ => inferInstanceAs (Decidable (_ → _ → _ → _ ∧ _))
  | .receive _ => isTrue trivial
  | .timers => isTrue trivial

end Flow

theorem growWindow_bounds (bytes : UInt32) (conn : Conn) (inWindow : bytes.toNat ≤ conn.cwnd.toNat)
    (room : conn.cwnd.toNat + bytes.toNat + 1 < 2 ^ 32) :
    conn.cwnd.toNat ≤ (growWindow bytes conn).cwnd.toNat ∧ (growWindow bytes conn).cwnd.toNat ≤
        conn.cwnd.toNat + bytes.toNat + 1 := by
  unfold growWindow
  split
  · simp only [UInt32.toNat_add]
    omega
  · have quotient : (bytes * bytes / conn.cwnd).toNat ≤ bytes.toNat := by
      rw [UInt32.toNat_div, UInt32.toNat_mul]
      calc bytes.toNat * bytes.toNat % 2 ^ 32 / conn.cwnd.toNat
          ≤ bytes.toNat * bytes.toNat / conn.cwnd.toNat := Nat.div_le_div_right (Nat.mod_le _ _)
        _ ≤ bytes.toNat := Nat.div_le_of_le_mul (Nat.mul_le_mul_right _ inWindow)
    have one : (1 : UInt32).toNat = 1 := rfl
    simp only [UInt32.toNat_add]
    omega

theorem outstanding_sent (conn : Conn) (bytes : UInt32) :
    conn.sendSeq + bytes - conn.sendUna = conn.outstanding + bytes := by
  unfold Conn.outstanding
  grind

theorem outstanding_acked (conn : Conn) (ackNum : UInt32) :
    conn.sendSeq - ackNum = conn.outstanding - (ackNum - conn.sendUna) := by
  unfold Conn.outstanding
  grind

theorem length_nextChunk_le (conn : Conn) (data : List UInt8) :
    (nextChunk conn data).length ≤ data.length ∧
      (nextChunk conn data).length ≤ (windowAvailable conn).toNat ∧
      (nextChunk conn data).length ≤ (cwndAvailable conn).toNat := by
  unfold nextChunk
  rw [List.length_take]
  omega

theorem length_nextChunk_pos {conn : Conn} {data : List UInt8} (segments : 0 < conn.mss.toNat)
    (goesOn : ¬ (data = [] ∨ windowAvailable conn = 0 ∨ cwndAvailable conn = 0)) :
    0 < (nextChunk conn data).length := by
  have someData : 0 < data.length := List.length_pos_iff.mpr fun empty => goesOn (Or.inl empty)
  have someWindow : (windowAvailable conn).toNat ≠ 0 := fun closed =>
    goesOn (Or.inr (Or.inl (UInt32.toNat_inj.mp closed)))
  have someCwnd : (cwndAvailable conn).toNat ≠ 0 := fun closed =>
    goesOn (Or.inr (Or.inr (UInt32.toNat_inj.mp closed)))
  unfold nextChunk
  rw [List.length_take]
  omega

theorem toNat_ofNat_length {chunk : List UInt8} (small : chunk.length ≤ 65535) :
    (UInt32.ofNat chunk.length).toNat = chunk.length :=
  UInt32.toNat_ofNat_of_lt' (Nat.lt_of_le_of_lt small (by decide))

theorem transmit_flow {endpoint : Endpoint} {chunk : List UInt8}
    (inWindow : endpoint.conn.outstanding.toNat + chunk.length ≤ 65535)
    (inCwnd : chunk.length ≤ endpoint.conn.cwnd.toNat)
    (room : endpoint.conn.cwnd.toNat + chunk.length + 1 < 2 ^ 32) :
    (transmit chunk endpoint).conn.mss = endpoint.conn.mss ∧
      (transmit chunk endpoint).conn.sendWindow = endpoint.conn.sendWindow ∧
      (transmit chunk endpoint).conn.outstanding.toNat =
        endpoint.conn.outstanding.toNat + chunk.length ∧
      endpoint.conn.cwnd.toNat ≤ (transmit chunk endpoint).conn.cwnd.toNat ∧
      (transmit chunk endpoint).conn.cwnd.toNat ≤ endpoint.conn.cwnd.toNat + chunk.length + 1 := by
  have lengthBytes : (UInt32.ofNat chunk.length).toNat = chunk.length :=
    toNat_ofNat_length (by omega)
  obtain ⟨queue, transmitted⟩ := transmit_grow endpoint chunk
  have bounds := growWindow_bounds (UInt32.ofNat chunk.length)
    { endpoint.conn with
      queue := queue
      sendSeq := endpoint.conn.sendSeq + UInt32.ofNat chunk.length }
    (by rw [lengthBytes]; exact inCwnd) (by rw [lengthBytes]; exact room)
  obtain ⟨cwnd, slow, grown⟩ := growWindow_eq (UInt32.ofNat chunk.length)
    { endpoint.conn with
      queue := queue
      sendSeq := endpoint.conn.sendSeq + UInt32.ofNat chunk.length }
  rw [lengthBytes] at bounds
  rw [transmitted]
  refine ⟨?_, ?_, ?_, bounds⟩
  · rw [grown]
  · rw [grown]
  · rw [grown]
    change (endpoint.conn.sendSeq + UInt32.ofNat chunk.length - endpoint.conn.sendUna).toNat = _
    rw [outstanding_sent, UInt32.toNat_add, lengthBytes]
    omega

theorem sendLoop_flow : ∀ (rounds : Nat) (data : List UInt8) (endpoint : Endpoint),
    0 < endpoint.conn.mss.toNat →
    endpoint.conn.outstanding.toNat ≤ endpoint.conn.sendWindow.toNat →
    endpoint.conn.outstanding.toNat ≤ endpoint.conn.cwnd.toNat →
    endpoint.conn.cwnd.toNat + 2 * (endpoint.conn.sendWindow.toNat -
      endpoint.conn.outstanding.toNat) < 2 ^ 32 →
    (sendLoop rounds data endpoint).2.conn.mss = endpoint.conn.mss ∧
      (sendLoop rounds data endpoint).2.conn.outstanding.toNat = endpoint.conn.outstanding.toNat +
          (sendLoop rounds data endpoint).1 ∧
      (sendLoop rounds data endpoint).2.conn.outstanding.toNat ≤ endpoint.conn.sendWindow.toNat ∧
      (sendLoop rounds data endpoint).2.conn.outstanding.toNat ≤
        (sendLoop rounds data endpoint).2.conn.cwnd.toNat ∧
      ∀ transmission ∈ loopTransmissions rounds data endpoint, transmission.Within := by
  intro rounds
  induction rounds with
  | zero =>
    intro data endpoint _ inWindow inCwnd _
    exact ⟨rfl, rfl, inWindow, inCwnd, by simp [loopTransmissions]⟩
  | succ rounds ih =>
    intro data endpoint segments inWindow inCwnd room
    unfold sendLoop loopTransmissions
    by_cases stops : data = [] ∨ windowAvailable endpoint.conn = 0 ∨ cwndAvailable endpoint.conn = 0
    · rw [if_pos stops, if_pos stops]
      exact ⟨rfl, rfl, inWindow, inCwnd, by simp⟩
    · rw [if_neg stops, if_neg stops]
      dsimp only
      set chunk := nextChunk endpoint.conn data with chunkEq
      have lengths := length_nextChunk_le endpoint.conn data
      have windowRest : (windowAvailable endpoint.conn).toNat = endpoint.conn.sendWindow.toNat -
            endpoint.conn.outstanding.toNat := by
        unfold windowAvailable
        rw [UInt32.toNat_sub_of_le _ _ (by
          rw [UInt32.le_iff_toNat_le, UInt16.toNat_toUInt32]
          exact inWindow), UInt16.toNat_toUInt32]
      have cwndRest : (cwndAvailable endpoint.conn).toNat =
          endpoint.conn.cwnd.toNat - endpoint.conn.outstanding.toNat := by
        unfold cwndAvailable
        rw [UInt32.toNat_sub_of_le _ _ (by
          rw [UInt32.le_iff_toNat_le]
          exact inCwnd)]
      have window16 := endpoint.conn.sendWindow.toNat_lt
      have chunkWindow : chunk.length ≤ endpoint.conn.sendWindow.toNat -
          endpoint.conn.outstanding.toNat := by
        rw [← windowRest]
        exact lengths.2.1
      have chunkCwnd : chunk.length ≤ endpoint.conn.cwnd.toNat -
          endpoint.conn.outstanding.toNat := by
        rw [← cwndRest]
        exact lengths.2.2
      have nonempty := length_nextChunk_pos segments stops
      rw [← chunkEq] at nonempty
      obtain ⟨sameMss, sameWindow, moved, grows, growsLittle⟩ :=
        @transmit_flow endpoint chunk (by omega) (by omega) (by omega)
      obtain ⟨lastMss, counted, lastWindow, lastCwnd, rest⟩ := ih (data.drop chunk.length)
        (transmit chunk endpoint) (by rw [sameMss]; exact segments)
        (by rw [sameWindow]; omega) (by omega) (by rw [sameWindow]; omega)
      rw [sameWindow] at lastWindow
      refine ⟨lastMss.trans sameMss, by omega, lastWindow, lastCwnd, ?_⟩
      refine List.forall_mem_cons.mpr ⟨⟨?_, ?_⟩, rest⟩ <;> dsimp only <;> omega

/-- What every state of a run within the conditions satisfies. -/
structure Flow.Sound (flow : Flow) : Prop where
  segments : 0 < flow.endpoint.conn.mss.toNat
  counted : flow.acked + flow.endpoint.conn.outstanding.toNat = flow.sent
  small : flow.endpoint.conn.outstanding.toNat ≤ 65535
  inCwnd : flow.endpoint.conn.outstanding.toNat ≤ flow.endpoint.conn.cwnd.toNat
  within : ∀ transmission ∈ flow.log, transmission.Within

theorem Flow.Sound.of_conn {flow : Flow} (sound : flow.Sound) (endpoint : Endpoint)
    (mss : endpoint.conn.mss = flow.endpoint.conn.mss)
    (outstanding : endpoint.conn.outstanding = flow.endpoint.conn.outstanding)
    (cwnd : endpoint.conn.cwnd = flow.endpoint.conn.cwnd) :
    Flow.Sound { flow with endpoint := endpoint } := by
  obtain ⟨segments, counted, small, inCwnd, within⟩ := sound
  rw [← mss] at segments
  rw [← outstanding] at counted small inCwnd
  rw [← cwnd] at inCwnd
  exact ⟨segments, counted, small, inCwnd, within⟩

theorem handleAck_flow {segment : Segment} {conn : Conn} (small : conn.outstanding.toNat ≤ 65535)
    (inCwnd : conn.outstanding.toNat ≤ conn.cwnd.toNat) (permitted : conn.sendUna < segment.ackNum →
      segment.ackNum - conn.sendUna ≤ conn.outstanding ∧ conn.cwnd.toNat + 2 ^ 18 ≤ 2 ^ 32) :
    (handleAck segment conn).mss = conn.mss ∧
      ((handleAck segment conn).sendUna - conn.sendUna).toNat +
        (handleAck segment conn).outstanding.toNat = conn.outstanding.toNat ∧
      conn.cwnd.toNat ≤ (handleAck segment conn).cwnd.toNat := by
  obtain ⟨state, pending, opened⟩ := ackState_eq segment conn
  unfold handleAck advanceUna
  rw [opened]
  dsimp only
  split
  · rename_i newer
    obtain ⟨sentOnly, room⟩ := permitted newer
    have acknowledged : (segment.ackNum - conn.sendUna).toNat ≤
      conn.outstanding.toNat := UInt32.le_iff_toNat_le.mp sentOnly
    have bounds := growWindow_bounds (segment.ackNum - conn.sendUna)
      (tcpAckRetransmit segment.ackNum
        { conn with
          state := state, pendingAccept := pending
          sendUna := segment.ackNum })
      (Nat.le_trans acknowledged inCwnd) (by
        change conn.cwnd.toNat + _ + 1 < _
        omega)
    obtain ⟨cwnd, slow, grown⟩ := growWindow_eq (segment.ackNum - conn.sendUna)
      (tcpAckRetransmit segment.ackNum
        { conn with
          state := state, pendingAccept := pending
          sendUna := segment.ackNum })
    refine ⟨?_, ?_, bounds.1⟩
    · rw [grown]
      rfl
    · rw [grown]
      change (segment.ackNum - conn.sendUna).toNat + (conn.sendSeq - segment.ackNum).toNat = _
      rw [outstanding_acked, UInt32.toNat_sub_of_le _ _ sentOnly]
      omega
  · refine ⟨rfl, ?_, Nat.le_refl _⟩
    change (conn.sendUna - conn.sendUna).toNat + conn.outstanding.toNat = _
    simp

theorem tcpSendData_cases (data : List UInt8) (endpoint : Endpoint) :
    (tcpSendData data endpoint = (none, endpoint) ∧ transmissions data endpoint = []) ∨
      (endpoint.conn.state = .established ∧
        data.length ≤ tcpTxBufferSize - endpoint.conn.txBuffer.length ∧ ∃ ready, ready.conn =
            { endpoint.conn with
              txBuffer := endpoint.conn.txBuffer ++ data } ∧
          tcpSendData data endpoint = (some (sendLoop data.length data ready).1,
              (sendLoop data.length data ready).2) ∧
          transmissions data endpoint = loopTransmissions data.length data ready) := by
  unfold tcpSendData transmissions
  cases accepted : tcpConnectionSend endpoint.conn data with
  | none => exact Or.inl ⟨rfl, rfl⟩
  | some sending =>
    obtain ⟨established, fits, sendingEq⟩ := tcpConnectionSend_some accepted
    exact Or.inr ⟨established, fits, endpoint.setConn sending, sendingEq, rfl, rfl⟩

theorem Flow.Sound.sendData {flow : Flow} (sound : flow.Sound)
    (data : List UInt8) (permitted : flow.Permits (.sendData data)) :
    (flow.step (.sendData data)).Sound := by
  rcases tcpSendData_cases data flow.endpoint with refused | loop
  · obtain ⟨refused, nothing⟩ := refused
    have same : flow.step (.sendData data) = flow := by
      simp only [Flow.step, TcpEvent.apply, refused, nothing, Option.getD_none,
        Nat.add_zero, List.append_nil]
    rw [same]
    exact sound
  · obtain ⟨established, fits, ready, readyConn, result, log⟩ := loop
    by_cases empty : data = []
    · subst empty
      have same : flow.step (.sendData []) = { flow with endpoint := ready } := by
        simp only [Flow.step, TcpEvent.apply, result, log, List.length_nil,
          sendLoop, loopTransmissions, Option.getD_some, Nat.add_zero, List.append_nil]
      rw [same]
      exact sound.of_conn ready (by rw [readyConn]) (by rw [readyConn]; rfl) (by rw [readyConn])
    · have room : flow.endpoint.conn.txBuffer.length + data.length ≤ tcpTxBufferSize := by
        have := List.length_pos_iff.mpr empty
        omega
      obtain ⟨inWindow, cwndRoom⟩ := permitted established empty room
      have readyOutstanding : ready.conn.outstanding = flow.endpoint.conn.outstanding := by
        rw [readyConn]
        rfl
      have window16 := flow.endpoint.conn.sendWindow.toNat_lt
      rw [UInt32.le_iff_toNat_le, UInt16.toNat_toUInt32] at inWindow
      have inCwnd := sound.inCwnd
      have counted := sound.counted
      obtain ⟨mss, moved, lastWindow, lastCwnd, within⟩ := sendLoop_flow data.length data ready
        (by rw [readyConn]; exact sound.segments)
        (by rw [readyOutstanding, readyConn]; exact inWindow)
        (by rw [readyOutstanding, readyConn]; exact inCwnd)
        (by rw [readyOutstanding, readyConn]; dsimp only; omega)
      rw [readyOutstanding] at moved
      rw [readyConn] at lastWindow mss
      dsimp only at lastWindow mss
      simp only [Flow.step, TcpEvent.apply, result, log, Option.getD_some]
      refine ⟨?_, ?_, ?_, lastCwnd, ?_⟩
      · rw [mss]
        exact sound.segments
      · dsimp only
        omega
      · dsimp only
        omega
      · exact List.forall_mem_append.mpr ⟨sound.within, within⟩

theorem Flow.Sound.arrive {flow : Flow} (sound : flow.Sound)
    (segment : Segment) (permitted : flow.Permits (.arrive segment)) :
    (flow.step (.arrive segment)).Sound := by
  have sending := handleSegment_sending segment flow.endpoint
  set acknowledged :=
    if segment.acknowledges then
      handleAck segment flow.endpoint.conn
    else
      flow.endpoint.conn with acknowledgedEq
  have facts : acknowledged.mss = flow.endpoint.conn.mss ∧
      (acknowledged.sendUna - flow.endpoint.conn.sendUna).toNat + acknowledged.outstanding.toNat =
          flow.endpoint.conn.outstanding.toNat ∧
      flow.endpoint.conn.cwnd.toNat ≤ acknowledged.cwnd.toNat := by
    rw [acknowledgedEq]
    split
    · rename_i acknowledges
      exact handleAck_flow sound.small sound.inCwnd (permitted acknowledges)
    · exact ⟨rfl, by simp, Nat.le_refl _⟩
  obtain ⟨mss, moved, grows⟩ := facts
  have counted := sound.counted
  have inCwnd := sound.inCwnd
  have small := sound.small
  refine ⟨?_, ?_, ?_, ?_, sound.within⟩
  · change 0 < (handleSegment segment flow.endpoint).conn.mss.toNat
    rw [sending.mss, mss]
    exact sound.segments
  · change flow.acked + ((handleSegment segment flow.endpoint).conn.sendUna -
      flow.endpoint.conn.sendUna).toNat +
        (handleSegment segment flow.endpoint).conn.outstanding.toNat = flow.sent
    rw [sending.outstanding, sending.sendUna]
    omega
  · change (handleSegment segment flow.endpoint).conn.outstanding.toNat ≤ 65535
    rw [sending.outstanding]
    omega
  · change (handleSegment segment flow.endpoint).conn.outstanding.toNat ≤
      (handleSegment segment flow.endpoint).conn.cwnd.toNat
    rw [sending.outstanding, sending.cwnd]
    omega

theorem Flow.Sound.step {flow : Flow} (sound : flow.Sound)
    (event : TcpEvent) (permitted : flow.Permits event) : (flow.step event).Sound := by
  cases event with
  | arrive segment => exact sound.arrive segment permitted
  | sendData data => exact sound.sendData data permitted
  | receive maxLen => exact sound.of_conn _ rfl rfl rfl
  | timers =>
    obtain ⟨queue, state, valid, isNext, _⟩ := processTimers_eq flow.endpoint
    exact sound.of_conn (processTimers flow.endpoint) (by rw [isNext]) (by rw [isNext]; rfl)
      (by rw [isNext])

theorem Opened.sound {endpoint : Endpoint} (opened : Opened endpoint) :
    (Flow.start endpoint).Sound := by
  obtain ⟨srcIp, srcPort, destIp, destPort, isn, now, state, recvSeq, opening⟩ := opened.conn_eq
  have started : (Flow.start endpoint).endpoint.conn =
    { newConn srcIp srcPort destIp destPort isn now with
      state := state
      recvSeq := recvSeq
      sendSeq := isn + 1 } := opening
  have one : (Flow.start endpoint).endpoint.conn.outstanding = 1 := by
    rw [started]
    change isn + 1 - isn = 1
    grind
  refine ⟨?_, ?_, ?_, ?_, ?_⟩
  · rw [started]
    exact (by decide : 0 < (1460 : UInt16).toNat)
  · rw [one]
    rfl
  · rw [one]
    decide
  · rw [one, started]
    exact Nat.le_refl 1
  · intro transmission member
    cases member

/-- The flow-control bound holds in every run in which the peer acknowledges
only what was sent, takes back no window before a transmission, and the
congestion window stays away from the end of its range. -/
theorem bounded_of_permitted {endpoint : Endpoint} (opened : Opened endpoint)
    {events : List TcpEvent}
    (permitted : AlongRun Flow.step Flow.Permits (Flow.start endpoint) events) :
    (runFrom Flow.step (Flow.start endpoint) events).Bounded := by
  have sound : (runFrom Flow.step (Flow.start endpoint) events).Sound :=
    permitted.invariant (fun _ event sound permitted =>
      sound.step event permitted) opened.sound
  exact ⟨sound.counted, sound.within⟩

/-- A connection of a listening port with initial sequence number 1000. -/
def passiveEndpoint : Endpoint :=
  openPassive
    { srcPort := 40000, destPort := 22, seqNum := 7, ackNum := 0
      flags := tcpFlagSyn, window := 4096, payload := [] }
    ⟨newConn 1 22 2 40000 1000 0, fun _ => 0, 0, []⟩

theorem opened_passiveEndpoint : Opened passiveEndpoint :=
  Opened.passive 1 22 2 40000 1000 0 _ 0 [] _

/-- An acknowledgement without data. -/
def ackOf (ackNum : UInt32) (window : UInt16) : Segment :=
  { srcPort := 40000, destPort := 22, seqNum := 8, ackNum := ackNum
    flags := tcpFlagAck, window := window, payload := [] }

/-- The peer acknowledges the SYN and the first byte. -/
theorem bounded_of_exchange : (runFrom Flow.step (Flow.start passiveEndpoint)
      [.arrive (ackOf 1001 4096), .sendData [1, 2], .arrive (ackOf 1002 4096),
        .sendData [3]]).Bounded := bounded_of_permitted opened_passiveEndpoint (by decide +kernel)

/-- An acknowledgement of data that was never sent moves `send_una` past
`send_seq`, and a window taken back does not stop `tcp_send_data`. -/
theorem not_bounded_of_peer : ¬ (runFrom Flow.step (Flow.start passiveEndpoint)
        [.arrive (ackOf 1005 4096)]).Bounded ∧ ¬ (runFrom Flow.step (Flow.start passiveEndpoint)
        [.arrive (ackOf 1001 4096), .sendData [1], .arrive (ackOf 1001 0),
          .sendData [2]]).Bounded := by
  decide +kernel

end KnitOS.Net
