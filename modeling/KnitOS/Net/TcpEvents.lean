import KnitOS.Lib.Runs
import KnitOS.Net.TcpConnection

/-!
# Runs of one TCP connection

A connection is opened by `tcp_connect` or by a SYN for a listening port.
After that, segments of the peer arrive, the application sends and receives
data, and the timers run, in any order.  The lemmas say once which fields each
function can change.
-/

namespace KnitOS.Net

section

variable (endpoint : Endpoint) (segment : Segment)

@[simp]
theorem setConn_conn (conn : Conn) : (endpoint.setConn conn).conn = conn := rfl

@[simp]
theorem tcpSend_conn (seqNum ackNum : UInt32) (flags : UInt8) (payload : List UInt8) :
    (endpoint.tcpSend seqNum ackNum flags payload).conn = endpoint.conn := by
  unfold Endpoint.tcpSend
  split
  · rfl
  · rfl

@[simp]
theorem sendAck_conn : endpoint.sendAck.conn = endpoint.conn := tcpSend_conn _ _ _ _ _

theorem growWindow_eq (bytes : UInt32) (conn : Conn) : ∃ cwnd slow, growWindow bytes conn =
    { conn with cwnd := cwnd, inSlowStart := slow } := by
  unfold growWindow
  split
  · exact ⟨_, _, rfl⟩
  · exact ⟨_, conn.inSlowStart, rfl⟩

theorem tcpAddRetransmit_eq (seq : UInt32) (data : List UInt8) :
    ∃ queue, (tcpAddRetransmit seq data endpoint).conn = { endpoint.conn with queue := queue } := by
  unfold tcpAddRetransmit
  split
  · exact ⟨endpoint.conn.queue, rfl⟩
  · exact ⟨_, rfl⟩

/-- A transmission advances `send_seq` and changes the queue, before the
congestion window grows. -/
theorem transmit_grow (chunk : List UInt8) : ∃ queue, (transmit chunk endpoint).conn =
      growWindow (UInt32.ofNat chunk.length)
        { endpoint.conn with
          queue := queue
          sendSeq := endpoint.conn.sendSeq + UInt32.ofNat chunk.length } := by
  unfold transmit
  dsimp only
  obtain ⟨queue, queued⟩ := tcpAddRetransmit_eq
    (endpoint.tcpSend endpoint.conn.sendSeq endpoint.conn.recvSeq
      (tcpFlagAck ||| tcpFlagPsh) chunk) endpoint.conn.sendSeq chunk
  rw [tcpSend_conn] at queued
  rw [setConn_conn, queued]
  exact ⟨queue, rfl⟩

theorem transmit_eq (chunk : List UInt8) : ∃ queue cwnd slow, (transmit chunk endpoint).conn =
      { endpoint.conn with
        queue := queue
        sendSeq := endpoint.conn.sendSeq + UInt32.ofNat chunk.length
        cwnd := cwnd
        inSlowStart := slow } := by
  obtain ⟨queue, transmitted⟩ := transmit_grow endpoint chunk
  obtain ⟨cwnd, slow, grown⟩ := growWindow_eq (UInt32.ofNat chunk.length)
    { endpoint.conn with
      queue := queue
      sendSeq := endpoint.conn.sendSeq + UInt32.ofNat chunk.length }
  exact ⟨queue, cwnd, slow, transmitted.trans grown⟩

theorem tcpConnectionSend_some {conn sending : Conn} {data : List UInt8}
    (accepted : tcpConnectionSend conn data = some sending) : conn.state = .established ∧
      data.length ≤ tcpTxBufferSize - conn.txBuffer.length ∧
      sending = { conn with txBuffer := conn.txBuffer ++ data } := by
  unfold tcpConnectionSend at accepted
  split at accepted
  · cases accepted
  · rename_i established
    split at accepted
    · cases accepted
    · rename_i fits
      exact ⟨not_not.mp established, by omega, (Option.some.inj accepted).symm⟩

theorem sendLoop_eq : ∀ (rounds : Nat) (data : List UInt8) (endpoint : Endpoint),
      ∃ queue cwnd slow, (sendLoop rounds data endpoint).2.conn =
        { endpoint.conn with
          queue := queue
          sendSeq := endpoint.conn.sendSeq + UInt32.ofNat (sendLoop rounds data endpoint).1
          cwnd := cwnd
          inSlowStart := slow } := by
  intro rounds
  induction rounds with
  | zero =>
    intro data endpoint
    exact ⟨endpoint.conn.queue, endpoint.conn.cwnd, endpoint.conn.inSlowStart, by simp [sendLoop]⟩
  | succ rounds ih =>
    intro data endpoint
    unfold sendLoop
    split
    · exact ⟨endpoint.conn.queue, endpoint.conn.cwnd, endpoint.conn.inSlowStart, by simp⟩
    · obtain ⟨queue, cwnd, slow, transmitted⟩ := transmit_eq endpoint (nextChunk endpoint.conn data)
      obtain ⟨lastQueue, lastCwnd, lastSlow, rest⟩ := ih
          (data.drop (nextChunk endpoint.conn data).length)
          (transmit (nextChunk endpoint.conn data) endpoint)
      refine ⟨lastQueue, lastCwnd, lastSlow, ?_⟩
      simp only [rest, transmitted, UInt32.ofNat_add, UInt32.add_assoc]

theorem handleData_eq : ∃ rxBuffer recvSeq recvWindow, (handleData segment endpoint).conn =
      { endpoint.conn with
        rxBuffer := rxBuffer
        recvSeq := recvSeq
        recvWindow := recvWindow } := by
  unfold handleData
  dsimp only
  split
  · rw [sendAck_conn]
    exact ⟨_, _, _, rfl⟩
  · exact ⟨_, _, _, rfl⟩

theorem handleFin_eq : ∃ state recvSeq valid, (handleFin segment endpoint).conn =
      { endpoint.conn with
        state := state
        recvSeq := recvSeq
        valid := valid } := by
  unfold handleFin
  dsimp only
  split
  · split
    · rw [sendAck_conn]
      exact ⟨_, _, _, rfl⟩
    · split
      · rw [setConn_conn, sendAck_conn]
        exact ⟨_, _, _, rfl⟩
      · exact ⟨_, _, _, rfl⟩
  · exact ⟨_, _, _, rfl⟩

theorem handleSyn_eq : ∃ state recvSeq, (handleSyn segment endpoint).conn =
    { endpoint.conn with state := state, recvSeq := recvSeq } := by
  unfold handleSyn
  split
  · rw [sendAck_conn]
    exact ⟨_, _, rfl⟩
  · exact ⟨_, _, rfl⟩

theorem ackState_eq (conn : Conn) : ∃ state pending, ackState segment conn =
    { conn with state := state, pendingAccept := pending } := by
  unfold ackState
  dsimp only
  split
  · split
    · exact ⟨_, _, rfl⟩
    · exact ⟨_, _, rfl⟩
  · split
    · exact ⟨_, _, rfl⟩
    · exact ⟨_, _, rfl⟩

theorem advanceUna_eq (ackNum : UInt32) (conn : Conn) :
    (¬ conn.sendUna < ackNum ∧ advanceUna ackNum conn = conn) ∨ (conn.sendUna < ackNum ∧
        ∃ cwnd slow, advanceUna ackNum conn =
          { conn with
            sendUna := ackNum
            queue := conn.queue.filter fun entry =>
              decide (ackNum ≤ entry.finish)
            cwnd := cwnd
            inSlowStart := slow }) := by
  unfold advanceUna
  by_cases newer : conn.sendUna < ackNum
  · rw [if_pos newer]
    obtain ⟨cwnd, slow, grown⟩ := growWindow_eq (ackNum - conn.sendUna)
      (tcpAckRetransmit ackNum { conn with sendUna := ackNum })
    exact Or.inr ⟨newer, cwnd, slow, grown⟩
  · rw [if_neg newer]
    exact Or.inl ⟨newer, rfl⟩

theorem handleAck_eq (conn : Conn) : ∃ state pendingAccept sendUna queue cwnd inSlowStart,
    handleAck segment conn =
      { conn with
        state, pendingAccept, sendUna, queue, cwnd, inSlowStart
        sendWindow := segment.window } := by
  unfold handleAck
  obtain ⟨_, _, isState⟩ := ackState_eq segment conn
  rcases advanceUna_eq segment.ackNum (ackState segment conn) with
    ⟨_, isNext⟩ | ⟨_, _, _, isNext⟩
  · rw [isNext, isState]
    exact ⟨_, _, _, _, _, _, rfl⟩
  · rw [isNext, isState]
    exact ⟨_, _, _, _, _, _, rfl⟩

theorem timerEntry_eq (entry : Queued) : (timerEntry entry endpoint).1.seq = entry.seq ∧
      (timerEntry entry endpoint).1.data = entry.data ∧
      ∃ state valid, (timerEntry entry endpoint).2.conn =
          { endpoint.conn with state := state, valid := valid } ∧
        (state = endpoint.conn.state ∧ valid = endpoint.conn.valid ∨
          state = .closed ∧ valid = false) := by
  unfold timerEntry
  dsimp only
  split
  · split
    · exact ⟨rfl, rfl, endpoint.conn.state, endpoint.conn.valid,
        tcpSend_conn endpoint.tick _ _ _ _, Or.inl ⟨rfl, rfl⟩⟩
    · exact ⟨rfl, rfl, _, _, rfl, Or.inr ⟨rfl, rfl⟩⟩
  · exact ⟨rfl, rfl, _, _, rfl, Or.inl ⟨rfl, rfl⟩⟩

theorem timerEntries_eq : ∀ (queue : List Queued) (endpoint : Endpoint),
      (timerEntries queue endpoint).1.map (fun entry =>
          (entry.seq, entry.data)) =
        queue.map (fun entry => (entry.seq, entry.data)) ∧
      ∃ state valid, (timerEntries queue endpoint).2.conn =
          { endpoint.conn with state := state, valid := valid } ∧
        (state = endpoint.conn.state ∧ valid = endpoint.conn.valid ∨
          state = .closed ∧ valid = false) := by
  intro queue
  induction queue with
  | nil =>
    intro endpoint
    exact ⟨rfl, _, _, rfl, Or.inl ⟨rfl, rfl⟩⟩
  | cons entry rest ih =>
    intro endpoint
    obtain ⟨sameSeq, sameData, state, valid, sameConn, closes⟩ := timerEntry_eq endpoint entry
    obtain ⟨sameRest, lastState, lastValid, lastConn, lastCloses⟩ :=
      ih (timerEntry entry endpoint).2
    refine ⟨congrArg₂ List.cons (Prod.ext sameSeq sameData) sameRest, lastState, lastValid, ?_, ?_⟩
    · change (timerEntries rest (timerEntry entry endpoint).2).2.conn = _
      rw [lastConn, sameConn]
    · rcases lastCloses with ⟨stays, kept⟩ | closed
      · rw [stays, kept, sameConn]
        exact closes
      · exact Or.inr closed

theorem processTimers_eq : ∃ queue state valid, (processTimers endpoint).conn =
        { endpoint.conn with
          queue := queue, state := state, valid := valid } ∧
      queue.map (fun entry => (entry.seq, entry.data)) =
        endpoint.conn.queue.map (fun entry => (entry.seq, entry.data)) ∧
      (state = endpoint.conn.state ∧ valid = endpoint.conn.valid ∨
        state = .closed ∧ valid = false) := by
  unfold processTimers
  split
  · obtain ⟨sameEntries, state, valid, sameConn, closes⟩ :=
      timerEntries_eq endpoint.conn.queue endpoint
    refine ⟨_, state, valid, ?_, sameEntries, closes⟩
    rw [setConn_conn, sameConn]
  · exact ⟨_, _, _, rfl, rfl, Or.inl ⟨rfl, rfl⟩⟩

end

/-- Everything `tcp_send_data` reads but the state is the same. -/
structure SameSending (before after : Conn) : Prop where
  sendSeq : after.sendSeq = before.sendSeq
  sendUna : after.sendUna = before.sendUna
  sendWindow : after.sendWindow = before.sendWindow
  cwnd : after.cwnd = before.cwnd
  mss : after.mss = before.mss
  txBuffer : after.txBuffer = before.txBuffer
  queue : after.queue = before.queue

theorem SameSending.outstanding {before after : Conn} (same : SameSending before after) :
    after.outstanding = before.outstanding := by
  unfold Conn.outstanding
  rw [same.sendSeq, same.sendUna]

/-- The segment reaches the ACK branch of `tcp_handle_packet`. -/
def Segment.acknowledges (segment : Segment) : Bool :=
  segment.has tcpFlagAck && !segment.has tcpFlagSyn && !segment.has tcpFlagRst

/-- What a segment can change beside the ACK branch. -/
theorem handleSegment_eq (segment : Segment) (endpoint : Endpoint) :
    ∃ state recvSeq valid rxBuffer recvWindow, (handleSegment segment endpoint).conn =
      { (if segment.acknowledges then handleAck segment endpoint.conn else endpoint.conn) with
        state, recvSeq, valid, rxBuffer, recvWindow } := by
  unfold handleSegment Segment.acknowledges
  by_cases reset : segment.has tcpFlagRst
  · simp only [reset, Bool.not_true, Bool.and_false, if_true]
    exact ⟨_, _, _, _, _, rfl⟩
  · have control : ∃ state recvSeq, (handleControl segment endpoint).conn =
        { (if segment.has tcpFlagAck && !segment.has tcpFlagSyn then
            handleAck segment endpoint.conn else endpoint.conn) with state, recvSeq } := by
      unfold handleControl
      by_cases synchronizes : segment.has tcpFlagSyn
      · simpa [synchronizes] using handleSyn_eq endpoint segment
      · by_cases acknowledges : segment.has tcpFlagAck
        · simp only [synchronizes, acknowledges]
          exact ⟨_, _, rfl⟩
        · simp only [synchronizes, acknowledges]
          exact ⟨_, _, rfl⟩
    obtain ⟨state, recvSeq, isControl⟩ := control
    obtain ⟨rxBuffer, _, recvWindow, isData⟩ :=
      handleData_eq (handleControl segment endpoint) segment
    obtain ⟨_, _, _, isFin⟩ :=
      handleFin_eq (handleData segment (handleControl segment endpoint)) segment
    simp only [reset, Bool.not_false, Bool.and_true]
    rw [if_neg (by simp), isFin, isData, isControl]
    exact ⟨_, _, _, _, _, rfl⟩

theorem handleSegment_sending (segment : Segment) (endpoint : Endpoint) : SameSending
    (if segment.acknowledges then
      handleAck segment endpoint.conn
    else
      endpoint.conn)
    (handleSegment segment endpoint).conn := by
  obtain ⟨_, _, _, _, _, isNext⟩ := handleSegment_eq segment endpoint
  rw [isNext]
  exact ⟨rfl, rfl, rfl, rfl, rfl, rfl, rfl⟩

/-- The states before the handshake is complete; no event leads into one. -/
def TcpState.isOpening : TcpState → Bool
  | .listen | .synSent | .synReceived => true
  | _ => false

/-- What every function keeps: the addresses, the states before the handshake
is complete, the empty queue of a connection that listens, and that only a
handshake makes a connection wait to be accepted. -/
structure Continues (before after : Conn) : Prop where
  tuple : after.tuple = before.tuple
  opening : after.state.isOpening = true → before.state = after.state
  pending : after.pendingAccept = true → before.pendingAccept = true ∨ before.state = .synReceived
  valid : after.valid = true → before.valid = true
  listens : before.state = .listen → after.valid = true → after.state = .listen
  quiet : after.state = .listen → before.queue = [] → after.queue = []

namespace Continues

theorem still {before after : Conn} (tuple : after.tuple = before.tuple)
    (state : before.state = after.state) (pending : after.pendingAccept = before.pendingAccept)
    (valid : after.valid = before.valid)
    (quiet : after.state = .listen → before.queue = [] → after.queue = []) :
    Continues before after :=
  ⟨tuple, fun _ => state, fun waits => Or.inl (pending ▸ waits), fun isValid => valid ▸ isValid,
    fun listens _ => state ▸ listens, quiet⟩

theorem refl (conn : Conn) : Continues conn conn := still rfl rfl rfl rfl fun _ => id

theorem trans {first second third : Conn} (before : Continues first second)
    (after : Continues second third) : Continues first third := by
  refine ⟨after.tuple.trans before.tuple, ?_, ?_, fun valid => before.valid (after.valid valid),
    fun listens valid => after.listens (before.listens listens (after.valid valid)) valid, ?_⟩
  · intro opening
    have same := after.opening opening
    exact (before.opening (same ▸ opening)).trans same
  · intro pending
    rcases after.pending pending with waits | received
    · exact before.pending waits
    · have same := before.opening (by rw [received]; rfl)
      exact Or.inr (same.trans received)
  · intro listens none
    have same := after.opening (by rw [listens]; rfl)
    exact after.quiet listens (before.quiet (same.trans listens) none)

/-- The connection moves on from a state in which it does not listen. -/
theorem moves {before after : Conn} (tuple : after.tuple = before.tuple)
    (opened : after.state.isOpening = false) (pending : after.pendingAccept = before.pendingAccept)
    (valid : after.valid = true → before.valid = true)
    (notListening : before.state = .listen → after.valid = false) : Continues before after := by
  refine ⟨tuple, fun opening => ?_, fun waits => Or.inl (pending ▸ waits), valid,
    fun listens isValid => ?_, fun listens => ?_⟩
  · rw [opened] at opening
    cases opening
  · rw [notListening listens] at isValid
    cases isValid
  · rw [listens] at opened
    cases opened

theorem close (conn : Conn) : Continues conn (tcpConnectionClose conn) :=
  moves rfl rfl rfl nofun fun _ => rfl

variable (segment : Segment) (endpoint : Endpoint)

theorem handleSyn : Continues endpoint.conn (handleSyn segment endpoint).conn := by
  unfold Net.handleSyn
  split
  · rename_i sent
    rw [sendAck_conn]
    exact moves rfl rfl rfl id (by simp [sent])
  · exact refl endpoint.conn

theorem handleAck (conn : Conn) : Continues conn (handleAck segment conn) := by
  have opened : Continues conn (ackState segment conn) := by
    unfold ackState
    by_cases received : conn.state = .synReceived
    · simp only [received, if_true]
      exact ⟨rfl, nofun, fun _ => Or.inr received, id, by simp [received], nofun⟩
    · simp only [received, if_false]
      split
      · rename_i waits
        exact moves rfl rfl rfl id (by simp [waits])
      · exact refl conn
  refine opened.trans ?_
  unfold Net.handleAck
  rcases advanceUna_eq segment.ackNum (ackState segment conn) with ⟨_, isNext⟩ | ⟨_, _, _, isNext⟩
  · rw [isNext]
    exact still rfl rfl rfl rfl fun _ => id
  · rw [isNext]
    exact still rfl rfl rfl rfl fun _ none => by simp [none]

theorem handleData : Continues endpoint.conn (handleData segment endpoint).conn := by
  obtain ⟨_, _, _, isNext⟩ := handleData_eq endpoint segment
  rw [isNext]
  exact still rfl rfl rfl rfl fun _ => id

theorem handleFin : Continues endpoint.conn (handleFin segment endpoint).conn := by
  unfold Net.handleFin
  dsimp only
  split
  · split
    · rename_i established
      rw [sendAck_conn]
      exact moves rfl rfl rfl id (by simp [established])
    · split
      · rw [setConn_conn, sendAck_conn]
        exact moves rfl rfl rfl nofun fun _ => rfl
      · exact refl endpoint.conn
  · exact refl endpoint.conn

theorem handleSegment : Continues endpoint.conn (handleSegment segment endpoint).conn := by
  unfold Net.handleSegment
  split
  · exact close endpoint.conn
  · have control : Continues endpoint.conn (handleControl segment endpoint).conn := by
      unfold handleControl
      split
      · exact handleSyn segment endpoint
      · split
        · exact handleAck segment endpoint.conn
        · exact refl endpoint.conn
    exact (control.trans (handleData segment _)).trans (handleFin segment _)

theorem tcpSendData (data : List UInt8) :
    Continues endpoint.conn (tcpSendData data endpoint).2.conn := by
  unfold Net.tcpSendData
  cases accepted : tcpConnectionSend endpoint.conn data with
  | none => exact refl endpoint.conn
  | some sending =>
    obtain ⟨established, _, isSending⟩ := tcpConnectionSend_some accepted
    obtain ⟨_, _, _, isNext⟩ := sendLoop_eq data.length data (endpoint.setConn sending)
    dsimp only
    rw [isNext, setConn_conn, isSending]
    exact still rfl rfl rfl rfl fun listens => nomatch established.symm.trans listens

theorem processTimers : Continues endpoint.conn (processTimers endpoint).conn := by
  obtain ⟨_, _, _, isNext, entries, ⟨rfl, rfl⟩ | ⟨rfl, rfl⟩⟩ := processTimers_eq endpoint
  · rw [isNext]
    exact still rfl rfl rfl rfl fun _ none => by simpa [none] using entries
  · rw [isNext]
    exact moves rfl rfl rfl nofun fun _ => rfl

end Continues

/-- What can happen to a connection. -/
inductive TcpEvent where
  | arrive (segment : Segment)
  | sendData (data : List UInt8)
  | receive (maxLen : Nat)
  | timers

def TcpEvent.apply (endpoint : Endpoint) : TcpEvent → Endpoint
  | .arrive segment => handleSegment segment endpoint
  | .sendData data => (tcpSendData data endpoint).2
  | .receive maxLen =>
    endpoint.setConn (tcpConnectionReceive endpoint.conn maxLen).2
  | .timers => processTimers endpoint

/-- A connection that was just opened, actively or passively. -/
inductive Opened : Endpoint → Prop where
  | active (srcIp : UInt32) (srcPort : UInt16) (destIp : UInt32)
      (destPort : UInt16) (isn now : UInt32) (clock : Nat → UInt32)
      (asked : Nat) (wire : List Outgoing) : Opened (openActive
        ⟨newConn srcIp srcPort destIp destPort isn now, clock, asked, wire⟩)
  | passive (srcIp : UInt32) (srcPort : UInt16) (destIp : UInt32)
      (destPort : UInt16) (isn now : UInt32) (clock : Nat → UInt32)
      (asked : Nat) (wire : List Outgoing) (segment : Segment) : Opened (openPassive segment
        ⟨newConn srcIp srcPort destIp destPort isn now, clock, asked, wire⟩)

theorem Opened.conn_eq {endpoint : Endpoint} (opened : Opened endpoint) :
    ∃ srcIp srcPort destIp destPort isn now state recvSeq, endpoint.conn =
        { newConn srcIp srcPort destIp destPort isn now with
          state := state
          recvSeq := recvSeq
          sendSeq := isn + 1 } := by
  cases opened with
  | active srcIp srcPort destIp destPort isn now clock asked wire =>
    refine ⟨srcIp, srcPort, destIp, destPort, isn, now, .synSent, 0, ?_⟩
    unfold openActive
    dsimp only
    rw [setConn_conn, tcpSend_conn]
    rfl
  | passive srcIp srcPort destIp destPort isn now clock asked wire segment =>
    refine ⟨srcIp, srcPort, destIp, destPort, isn, now, .synReceived, segment.seqNum + 1, ?_⟩
    unfold openPassive
    dsimp only
    rw [setConn_conn, tcpSend_conn]
    rfl

end KnitOS.Net
