import KnitOS.Net.TcpEvents

/-!
# The advertised window

`tcp_handle_packet` computes `recv_window` when data arrives.
`tcp_connection_receive` takes bytes out of the buffer and leaves it.
-/

namespace KnitOS.Net

open Lib

def Conn.room (conn : Conn) : UInt16 :=
  UInt16.ofNat (tcpRxBufferSize - conn.rxBuffer.length)

/-- The window is the free space after an event, and every segment that was
sent meanwhile advertises the space before it or after it. -/
structure Advertised (before after : Endpoint) : Prop where
  window : after.conn.recvWindow = after.conn.room
  sent : ∀ outgoing ∈ after.wire, outgoing ∈ before.wire ∨
    outgoing.segment.window = before.conn.room ∨ outgoing.segment.window = after.conn.room

/-- The application takes no bytes. -/
def TakesNothing (endpoint : Endpoint) : TcpEvent → Prop
  | .receive maxLen => endpoint.conn.rxBuffer.take maxLen = []
  | _ => True

/-- The windows of the segments that are new on the wire. -/
def Emits (windows : List UInt16) (before after : Endpoint) : Prop :=
  ∀ outgoing ∈ after.wire, outgoing ∈ before.wire ∨ outgoing.segment.window ∈ windows

variable {windows : List UInt16}

theorem emits_of_wire {before after : Endpoint}
    (same : after.wire = before.wire) : Emits windows before after :=
  fun _ member => Or.inl (same ▸ member)

theorem Emits.trans {first second third : Endpoint}
    (before : Emits windows first second) (after : Emits windows second third) :
    Emits windows first third :=
  fun outgoing member => (after outgoing member).elim (before outgoing) Or.inr

theorem emits_tcpSend {windows : List UInt16} {endpoint : Endpoint}
    (advertised : endpoint.conn.recvWindow ∈ windows) (seqNum ackNum : UInt32) (flags : UInt8)
    (payload : List UInt8) :
    Emits windows endpoint (endpoint.tcpSend seqNum ackNum flags payload) := by
  unfold Endpoint.tcpSend
  split
  · exact emits_of_wire rfl
  · exact List.forall_mem_append.mpr ⟨fun _ => Or.inl,
      List.forall_mem_singleton.mpr (Or.inr advertised)⟩

variable {endpoint : Endpoint}

theorem emits_transmit (advertised : endpoint.conn.recvWindow ∈ windows) (chunk : List UInt8) :
    Emits windows endpoint (transmit chunk endpoint) := by
  refine (emits_tcpSend advertised endpoint.conn.sendSeq endpoint.conn.recvSeq
    (tcpFlagAck ||| tcpFlagPsh) chunk).trans (emits_of_wire ?_)
  unfold transmit tcpAddRetransmit
  dsimp only
  split <;> rfl

theorem emits_sendLoop {windows : List UInt16} : ∀ (rounds : Nat) (data : List UInt8)
    {endpoint : Endpoint}, endpoint.conn.recvWindow ∈ windows →
      Emits windows endpoint (sendLoop rounds data endpoint).2
  | 0, _, _, _ => emits_of_wire rfl
  | rounds + 1, data, endpoint, advertised => by
    unfold sendLoop
    split
    · exact emits_of_wire rfl
    · have first := emits_transmit advertised (nextChunk endpoint.conn data)
      refine first.trans (emits_sendLoop rounds _ ?_)
      obtain ⟨_, _, _, isNext⟩ := transmit_eq endpoint (nextChunk endpoint.conn data)
      rw [isNext]
      exact advertised

theorem emits_timerEntries {windows : List UInt16} : ∀ (queue : List Queued)
    {endpoint : Endpoint}, endpoint.conn.recvWindow ∈ windows →
      Emits windows endpoint (timerEntries queue endpoint).2
  | [], _, _ => emits_of_wire rfl
  | entry :: rest, endpoint, advertised => by
    have first : Emits windows endpoint (timerEntry entry endpoint).2 := by
      unfold timerEntry
      dsimp only
      split
      · split
        · exact @emits_tcpSend windows endpoint.tick advertised entry.seq
            endpoint.tick.conn.recvSeq tcpFlagAck entry.data
        · exact emits_of_wire rfl
      · exact emits_of_wire rfl
    refine first.trans (emits_timerEntries rest ?_)
    obtain ⟨_, _, _, _, isNext, _⟩ := timerEntry_eq endpoint entry
    rw [isNext]
    exact advertised

theorem handleControl_window (segment : Segment) (endpoint : Endpoint) :
    (handleControl segment endpoint).conn.recvWindow = endpoint.conn.recvWindow ∧
      (handleControl segment endpoint).conn.rxBuffer = endpoint.conn.rxBuffer := by
  unfold handleControl
  split
  · obtain ⟨_, _, isNext⟩ := handleSyn_eq endpoint segment
    rw [isNext]
    exact ⟨rfl, rfl⟩
  · split
    · obtain ⟨_, _, _, _, _, _, isNext⟩ := handleAck_eq segment endpoint.conn
      rw [setConn_conn, isNext]
      exact ⟨rfl, rfl⟩
    · exact ⟨rfl, rfl⟩

theorem advertised_arrive (segment : Segment)
    (window : endpoint.conn.recvWindow = endpoint.conn.room) :
    Advertised endpoint (handleSegment segment endpoint) := by
  unfold handleSegment
  split
  · exact ⟨window, fun _ member => Or.inl member⟩
  · obtain ⟨sameWindow, sameBuffer⟩ := handleControl_window segment endpoint
    have controlWindow : (handleControl segment endpoint).conn.recvWindow =
        (handleControl segment endpoint).conn.room := by
      rw [sameWindow, window, Conn.room, Conn.room, sameBuffer]
    have control : Emits [endpoint.conn.room] endpoint (handleControl segment endpoint) := by
      unfold handleControl handleSyn
      split
      · split
        · exact @emits_tcpSend _ (endpoint.setConn _) (by simp [window]) _ _ _ _
        · exact emits_of_wire rfl
      · split <;> exact emits_of_wire rfl
    have sameRoom : (handleControl segment endpoint).conn.room = endpoint.conn.room := by
      rw [Conn.room, Conn.room, sameBuffer]
    generalize handleControl segment endpoint = middle at controlWindow control sameRoom
    have data : (handleData segment middle).conn.recvWindow =
          (handleData segment middle).conn.room ∧
        Emits [(handleData segment middle).conn.room] middle (handleData segment middle) := by
      unfold handleData
      dsimp only
      split
      · simp only [sendAck_conn, setConn_conn]
        exact ⟨rfl, @emits_tcpSend _ (middle.setConn _) (by simp [Conn.room]) _ _ _ _⟩
      · exact ⟨controlWindow, emits_of_wire rfl⟩
    generalize handleData segment middle = received at data
    have fin : (handleFin segment received).conn.recvWindow = received.conn.recvWindow ∧
        (handleFin segment received).conn.room = received.conn.room ∧
        Emits [received.conn.room] received (handleFin segment received) := by
      obtain ⟨_, _, _, isNext⟩ := handleFin_eq received segment
      refine ⟨by rw [isNext], by rw [isNext]; rfl, ?_⟩
      unfold handleFin
      dsimp only
      split
      · split
        · exact @emits_tcpSend _ (received.setConn _) (by simp [data.1]) _ _ _ _
        · split
          · exact @emits_tcpSend _ (received.setConn _) (by simp [data.1]) _ _ _ _
          · exact emits_of_wire rfl
      · exact emits_of_wire rfl
    refine ⟨fin.1.trans (data.1.trans fin.2.1.symm), ?_⟩
    intro outgoing member
    rw [fin.2.1]
    rcases fin.2.2 outgoing member with old | new
    · rcases data.2 outgoing old with older | newer
      · exact (control outgoing older).imp id fun first => Or.inl (List.mem_singleton.mp first)
      · exact Or.inr (Or.inr (List.mem_singleton.mp newer))
    · exact Or.inr (Or.inr (List.mem_singleton.mp new))

theorem advertised_step {event : TcpEvent} (window : endpoint.conn.recvWindow = endpoint.conn.room)
    (nothing : TakesNothing endpoint event) : Advertised endpoint (event.apply endpoint) := by
  have always : endpoint.conn.recvWindow ∈ [endpoint.conn.room] := by simp [window]
  cases event with
  | arrive segment => exact advertised_arrive segment window
  | sendData data =>
    simp only [TcpEvent.apply, tcpSendData]
    cases accepted : tcpConnectionSend endpoint.conn data with
    | none => exact ⟨window, fun _ member => Or.inl member⟩
    | some sending =>
      obtain ⟨_, _, isSending⟩ := tcpConnectionSend_some accepted
      have same : (endpoint.setConn sending).conn.recvWindow = endpoint.conn.recvWindow ∧
          (endpoint.setConn sending).conn.rxBuffer = endpoint.conn.rxBuffer := by
        rw [setConn_conn, isSending]
        exact ⟨rfl, rfl⟩
      obtain ⟨_, _, _, isNext⟩ := sendLoop_eq data.length data (endpoint.setConn sending)
      have emits := @emits_sendLoop [endpoint.conn.room] data.length data
        (endpoint.setConn sending) (by rw [same.1]; exact always)
      refine ⟨?_, fun outgoing member => (emits outgoing member).imp id fun new =>
        Or.inl (List.mem_singleton.mp new)⟩
      rw [isNext]
      simp only [Conn.room, same.1, same.2]
      exact window
  | receive maxLen =>
    have kept : endpoint.conn.rxBuffer.drop maxLen = endpoint.conn.rxBuffer := by
      have split := List.take_append_drop maxLen endpoint.conn.rxBuffer
      rwa [show endpoint.conn.rxBuffer.take maxLen = [] from nothing, List.nil_append] at split
    refine ⟨?_, fun _ member => Or.inl member⟩
    simp only [TcpEvent.apply, tcpConnectionReceive, setConn_conn, Conn.room, kept]
    exact window
  | timers =>
    obtain ⟨_, _, _, isNext, _⟩ := processTimers_eq endpoint
    simp only [TcpEvent.apply]
    refine ⟨by rw [isNext]; exact window, fun outgoing member => ?_⟩
    have emits : Emits [endpoint.conn.room] endpoint (processTimers endpoint) := by
      unfold processTimers
      split
      · exact emits_timerEntries endpoint.conn.queue always
      · exact emits_of_wire rfl
    exact (emits outgoing member).imp id fun new => Or.inl (List.mem_singleton.mp new)

theorem window_of_opened {start : Endpoint} (opened : Opened start) :
    start.conn.recvWindow = start.conn.room := by
  obtain ⟨_, _, _, _, _, _, _, _, isConn⟩ := opened.conn_eq
  rw [isConn]
  rfl

/-- As long as the application takes nothing out of the buffer, the window is
its free space, and so is what the next event advertises. -/
theorem advertised_run {start : Endpoint} (opened : Opened start) {events : List TcpEvent}
    (nothing : AlongRun TcpEvent.apply TakesNothing start events) :
    let reached := runFrom TcpEvent.apply start events
    reached.conn.recvWindow = reached.conn.room ∧
      ∀ event, TakesNothing reached event → Advertised reached (event.apply reached) := by
  have window := @AlongRun.invariant _ _ TcpEvent.apply
    (fun endpoint => endpoint.conn.recvWindow = endpoint.conn.room) TakesNothing
    (fun _ _ window takes => (advertised_step window takes).window)
    events start nothing (window_of_opened opened)
  exact ⟨window, fun event takes => advertised_step window takes⟩

/-- A connection that a peer has opened. -/
def acceptedConn : Endpoint :=
  openPassive ⟨40000, 80, 99, 0, tcpFlagSyn, 4096, []⟩
    ⟨newConn 0x0A00020F 80 0x0A000202 40000 1000 0, fun _ => 0, 0, []⟩

/-- The peer completes the handshake and sends a byte. -/
def oneByte : List TcpEvent :=
  [.arrive ⟨40000, 80, 100, 1001, tcpFlagAck, 4096, []⟩,
    .arrive ⟨40000, 80, 100, 1001, tcpFlagAck, 4096, [65]⟩]

theorem advertised_run_oneByte :
    let reached := runFrom TcpEvent.apply acceptedConn oneByte
    reached.conn.recvWindow = reached.conn.room ∧
      ∀ event, TakesNothing reached event → Advertised reached (event.apply reached) :=
  advertised_run (.passive ..) ⟨trivial, trivial, trivial⟩

/-- The byte is read, and the window stays as it was. -/
theorem receive_keeps_window : Opened acceptedConn ∧
    (runFrom TcpEvent.apply acceptedConn (oneByte ++ [.receive 1])).conn.recvWindow ≠
      (runFrom TcpEvent.apply acceptedConn (oneByte ++ [.receive 1])).conn.room :=
  ⟨.passive .., by decide⟩

end KnitOS.Net
