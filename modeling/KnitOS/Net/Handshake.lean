import KnitOS.Net.CongestionWindow

/-!
# The handshake

`tcp_handle_packet` looks at the flags of the segment that completes a
handshake, and not at its acknowledgement number.
-/

namespace KnitOS.Net

open Lib

/-- The segment brings the connection to ESTABLISHED, which a FIN in the same
segment may end at once. -/
def Establishes (segment : Segment) (endpoint : Endpoint) : Prop :=
  segment.has tcpFlagRst = false ∧ endpoint.conn.state ≠ .established ∧
    (handleControl segment endpoint).conn.state = .established

/-- The segment carries an acknowledgement with this number. -/
def Segment.Acks (ackNum : UInt32) (segment : Segment) : Prop :=
  segment.has tcpFlagAck = true ∧ segment.ackNum = ackNum

/-- The segment is a SYN for SYN_SENT or an ACK for SYN_RECEIVED. -/
def Segment.Completes (segment : Segment) (conn : Conn) : Prop :=
  segment.has tcpFlagRst = false ∧
    (conn.state = .synSent ∧ segment.has tcpFlagSyn = true ∨
      conn.state = .synReceived ∧ segment.has tcpFlagSyn = false ∧
        segment.has tcpFlagAck = true)

theorem handleAck_state (segment : Segment) (conn : Conn) : (handleAck segment conn).state =
    if conn.state = .synReceived then .established
    else if conn.state = .finWait1 ∧ segment.ackNum = conn.sendSeq then .finWait2
    else conn.state := by
  have opened : (ackState segment conn).state = if conn.state = .synReceived then .established
      else if conn.state = .finWait1 ∧ segment.ackNum = conn.sendSeq then .finWait2
      else conn.state := by
    unfold ackState
    by_cases received : conn.state = .synReceived
    · simp [received]
    · simp only [received, if_false]
      split <;> rfl
  unfold handleAck
  rcases advanceUna_eq segment.ackNum (ackState segment conn) with ⟨_, same⟩ | ⟨_, _, _, same⟩
  · rw [same, ← opened]
  · rw [same, ← opened]

theorem establishes_iff_completes (segment : Segment) (endpoint : Endpoint) :
    Establishes segment endpoint ↔ segment.Completes endpoint.conn := by
  unfold Establishes Segment.Completes handleControl handleSyn
  by_cases synchronizes : segment.has tcpFlagSyn
  · by_cases sent : endpoint.conn.state = .synSent <;> simp [synchronizes, sent]
  · by_cases acknowledges : segment.has tcpFlagAck
    · have next := handleAck_state segment endpoint.conn
      by_cases received : endpoint.conn.state = .synReceived
      · simp [synchronizes, acknowledges, next, received]
      · have away : endpoint.conn.state ≠ .established →
            (handleAck segment endpoint.conn).state ≠ .established := by
          intro other
          rw [next, if_neg received]
          split
          · simp
          · exact other
        simpa [synchronizes, acknowledges, received] using fun _ => away
    · simp [synchronizes, acknowledges]

/-- Until the handshake is complete only the SYN is sent. -/
def Conn.OnlySyn (sendSeq : UInt32) (conn : Conn) : Prop :=
  conn.state = .synSent ∨ conn.state = .synReceived → conn.sendSeq = sendSeq

theorem onlySyn_step {sendSeq : UInt32} {endpoint : Endpoint} (event : TcpEvent)
    (onlySyn : endpoint.conn.OnlySyn sendSeq) :
    (event.apply endpoint).conn.OnlySyn sendSeq := by
  intro opening
  cases event with
  | arrive segment =>
    have before : endpoint.conn.state = .synSent ∨ endpoint.conn.state = .synReceived := by
      simp only [TcpEvent.apply] at opening
      have isOpening : ((handleSegment segment endpoint).conn.state).isOpening := by
        rcases opening with state | state <;> simp [state, TcpState.isOpening]
      rw [(Continues.handleSegment segment endpoint).opening isOpening]
      exact opening
    have same := (handleSegment_sending segment endpoint).sendSeq
    simp only [TcpEvent.apply]
    rw [same]
    split
    · obtain ⟨_, _, _, _, _, _, isNext⟩ := handleAck_eq segment endpoint.conn
      rw [isNext]
      exact onlySyn before
    · exact onlySyn before
  | sendData data =>
    simp only [TcpEvent.apply] at *
    rcases tcpSendData_cases data endpoint with
      ⟨refused, _⟩ | ⟨established, _, ready, isReady, sent, _⟩
    · rw [refused] at opening ⊢
      exact onlySyn opening
    · obtain ⟨_, _, _, isNext⟩ := sendLoop_eq data.length data ready
      rw [sent, isNext, isReady] at opening
      simp [established] at opening
  | receive maxLen => exact onlySyn opening
  | timers =>
    obtain ⟨_, state, _, isNext, _, closes⟩ := processTimers_eq endpoint
    simp only [TcpEvent.apply] at *
    rw [isNext] at opening ⊢
    rcases closes with ⟨same, _⟩ | ⟨closed, _⟩
    · exact onlySyn (same ▸ opening)
    · simp [closed] at opening

/-- In every state that is reached, a segment that brings the connection to
ESTABLISHED acknowledges the SYN exactly when the segment that completes the
handshake does. -/
theorem establishes_acks_iff {start : Endpoint} (opened : Opened start)
    (events : List TcpEvent) (segment : Segment) :
    (Establishes segment (runFrom TcpEvent.apply start events) →
      segment.Acks (start.conn.sendUna + 1)) ↔
    (segment.Completes (runFrom TcpEvent.apply start events).conn →
      segment.Acks (runFrom TcpEvent.apply start events).conn.sendSeq) := by
  have first : start.conn.OnlySyn (start.conn.sendUna + 1) := by
    obtain ⟨_, _, _, _, _, _, _, _, isConn⟩ := opened.conn_eq
    rw [isConn]
    exact fun _ => rfl
  have onlySyn := @runFrom_invariant _ _ TcpEvent.apply
    (fun endpoint => endpoint.conn.OnlySyn (start.conn.sendUna + 1))
    (fun _ event => onlySyn_step event) start first events
  rw [establishes_iff_completes]
  refine forall_congr' fun completes => ?_
  rw [onlySyn (completes.2.imp And.left And.left)]

theorem establishes_acks_iff_syn :
    (Establishes ⟨80, 50152, 7, 0, tcpFlagSyn, 4096, []⟩ (runFrom TcpEvent.apply firstConnect []) →
      Segment.Acks (firstConnect.conn.sendUna + 1) ⟨80, 50152, 7, 0, tcpFlagSyn, 4096, []⟩) ↔
    (Segment.Completes ⟨80, 50152, 7, 0, tcpFlagSyn, 4096, []⟩
        (runFrom TcpEvent.apply firstConnect []).conn →
      Segment.Acks (runFrom TcpEvent.apply firstConnect []).conn.sendSeq
        ⟨80, 50152, 7, 0, tcpFlagSyn, 4096, []⟩) :=
  establishes_acks_iff (.active ..) [] _

/-- A SYN without an acknowledgement is taken for the answer to ours. -/
theorem syn_establishes : Opened firstConnect ∧
    ¬ (Establishes ⟨80, 50152, 7, 0, tcpFlagSyn, 4096, []⟩ firstConnect →
      Segment.Acks (firstConnect.conn.sendUna + 1) ⟨80, 50152, 7, 0, tcpFlagSyn, 4096, []⟩) := by
  refine ⟨.active .., fun acks => ?_⟩
  have carries := (acks ⟨by decide, by decide, by decide⟩).1
  exact absurd carries (by decide)

end KnitOS.Net
