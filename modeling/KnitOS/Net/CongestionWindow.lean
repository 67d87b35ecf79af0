import KnitOS.Net.TcpFlow

/-!
# The congestion window

Outside slow start the window grows by a quotient with itself as the divisor.
The window starts at 1 and wraps like any other number.
-/

namespace KnitOS.Net

open Lib

/-- The divisions by `cwnd` are defined. -/
def Conn.Divides (conn : Conn) : Prop :=
  ¬ (conn.inSlowStart = false ∧ conn.cwnd = 0)

instance decidableDivides (conn : Conn) : Decidable conn.Divides :=
  inferInstanceAs (Decidable (¬ _))

/-- An acknowledgement covers only what was sent. -/
def AcksSent (endpoint : Endpoint) : TcpEvent → Prop
  | .arrive segment =>
    segment.acknowledges = true → endpoint.conn.sendUna < segment.ackNum →
      segment.ackNum - endpoint.conn.sendUna ≤ endpoint.conn.outstanding
  | _ => True

/-- In slow start the window and what is outstanding are paid for by the bytes
that the application has handed over; `pending` of them are not sent yet. -/
structure Starting (pending : Nat) (conn : Conn) : Prop where
  slow : conn.inSlowStart = true
  limit : conn.ssthresh = 65535
  buffered : conn.txBuffer.length ≤ 4096
  budget : conn.cwnd.toNat + conn.outstanding.toNat + 2 * pending ≤ 2 + 2 * conn.txBuffer.length

theorem growWindow_slow {bytes : UInt32} {conn : Conn} (slow : conn.inSlowStart = true)
    (limit : conn.ssthresh = 65535) (small : conn.cwnd.toNat + bytes.toNat < 65535) :
    growWindow bytes conn = { conn with cwnd := conn.cwnd + bytes } ∧
      (conn.cwnd + bytes).toNat = conn.cwnd.toNat + bytes.toNat := by
  have sum : (conn.cwnd + bytes).toNat = conn.cwnd.toNat + bytes.toNat := by
    rw [UInt32.toNat_add]
    omega
  have below : conn.cwnd + bytes < conn.ssthresh := by
    rw [limit, UInt32.lt_iff_toNat_lt, sum]
    exact small
  refine ⟨?_, sum⟩
  simp [growWindow, slow, below]

namespace Starting

theorem transmit {pending : Nat} {endpoint : Endpoint} {chunk : List UInt8}
    (starting : Starting pending endpoint.conn) (short : chunk.length ≤ pending) :
    Starting (pending - chunk.length) (transmit chunk endpoint).conn := by
  obtain ⟨slow, limit, buffered, budget⟩ := starting
  have length : (UInt32.ofNat chunk.length).toNat = chunk.length := toNat_ofNat_length (by omega)
  obtain ⟨queue, transmitted⟩ := transmit_grow endpoint chunk
  obtain ⟨grown, sum⟩ := @growWindow_slow (UInt32.ofNat chunk.length)
    { endpoint.conn with
      queue := queue
      sendSeq := endpoint.conn.sendSeq + UInt32.ofNat chunk.length } slow limit
    (by rw [length]; dsimp only; omega)
  have moved := outstanding_sent endpoint.conn (UInt32.ofNat chunk.length)
  have total : (endpoint.conn.outstanding + UInt32.ofNat chunk.length).toNat =
      endpoint.conn.outstanding.toNat + chunk.length := by
    rw [UInt32.toNat_add, length]
    omega
  rw [transmitted, grown]
  refine ⟨slow, limit, buffered, ?_⟩
  simp only [Conn.outstanding, length] at *
  rw [moved, total, sum]
  omega

theorem sendLoop : ∀ (rounds : Nat) {data : List UInt8} {endpoint : Endpoint},
    Starting data.length endpoint.conn → Starting 0 (sendLoop rounds data endpoint).2.conn
  | 0, _, _, starting => ⟨starting.slow, starting.limit, starting.buffered, by
      have := starting.budget
      simp only [Net.sendLoop]
      omega⟩
  | rounds + 1, data, endpoint, starting => by
    unfold Net.sendLoop
    split
    · exact ⟨starting.slow, starting.limit, starting.buffered, by
        have := starting.budget
        dsimp only
        omega⟩
    · have next := starting.transmit (length_nextChunk_le endpoint.conn data).1
      rw [← List.length_drop] at next
      exact sendLoop rounds next

theorem sendData {endpoint : Endpoint} (starting : Starting 0 endpoint.conn)
    (data : List UInt8) : Starting 0 (tcpSendData data endpoint).2.conn := by
  rcases tcpSendData_cases data endpoint with ⟨refused, _⟩ | ⟨_, fits, ready, isReady, sent, _⟩
  · rw [refused]
    exact starting
  · obtain ⟨slow, limit, buffered, budget⟩ := starting
    rw [sent]
    apply Starting.sendLoop
    rw [isReady]
    refine ⟨slow, limit, ?_, ?_⟩
    · simp only [List.length_append, tcpTxBufferSize] at *
      omega
    · rw [List.length_append]
      simp only [Conn.outstanding] at *
      omega

theorem handleAck {segment : Segment} {conn : Conn} (starting : Starting 0 conn)
    (sent : conn.sendUna < segment.ackNum → segment.ackNum - conn.sendUna ≤ conn.outstanding) :
    Starting 0 (handleAck segment conn) := by
  obtain ⟨slow, limit, buffered, budget⟩ := starting
  obtain ⟨state, pending, opened⟩ := ackState_eq segment conn
  unfold Net.handleAck advanceUna
  rw [opened]
  dsimp only
  split
  · rename_i newer
    have covered := UInt32.le_iff_toNat_le.mp (sent newer)
    obtain ⟨grown, sum⟩ := @growWindow_slow (segment.ackNum - conn.sendUna)
      (tcpAckRetransmit segment.ackNum
        { conn with state := state, pendingAccept := pending, sendUna := segment.ackNum })
      slow limit (by simp only [tcpAckRetransmit]; omega)
    have rest := outstanding_acked conn segment.ackNum
    rw [grown]
    refine ⟨slow, limit, buffered, ?_⟩
    simp only [tcpAckRetransmit, Conn.outstanding] at *
    rw [rest, sum, UInt32.toNat_sub_of_le _ _ (sent newer)]
    omega
  · exact ⟨slow, limit, buffered, budget⟩

theorem step {endpoint : Endpoint} {event : TcpEvent} (starting : Starting 0 endpoint.conn)
    (allowed : AcksSent endpoint event) : Starting 0 (event.apply endpoint).conn := by
  cases event with
  | arrive segment =>
    obtain ⟨state, recvSeq, valid, rxBuffer, recvWindow, isNext⟩ :=
      handleSegment_eq segment endpoint
    simp only [TcpEvent.apply]
    rw [isNext]
    split
    · rename_i acknowledges
      obtain ⟨slow, limit, buffered, budget⟩ := starting.handleAck (allowed acknowledges)
      exact ⟨slow, limit, buffered, budget⟩
    · obtain ⟨slow, limit, buffered, budget⟩ := starting
      exact ⟨slow, limit, buffered, budget⟩
  | sendData data => exact starting.sendData data
  | receive maxLen =>
    obtain ⟨slow, limit, buffered, budget⟩ := starting
    exact ⟨slow, limit, buffered, budget⟩
  | timers =>
    obtain ⟨queue, state, valid, isNext, _⟩ := processTimers_eq endpoint
    obtain ⟨slow, limit, buffered, budget⟩ := starting
    simp only [TcpEvent.apply]
    rw [isNext]
    exact ⟨slow, limit, buffered, budget⟩

end Starting

/-- As long as the peer acknowledges only what was sent, no division is by 0. -/
theorem divides_run {endpoint : Endpoint} (opened : Opened endpoint)
    {events : List TcpEvent} (acks : AlongRun TcpEvent.apply AcksSent endpoint events) :
    (runFrom TcpEvent.apply endpoint events).conn.Divides := by
  have starting : Starting 0 endpoint.conn := by
    obtain ⟨_, _, _, _, isn, _, _, _, isConn⟩ := opened.conn_eq
    rw [isConn]
    refine ⟨rfl, rfl, by simp [newConn], ?_⟩
    have one : isn + 1 - isn = 1 := by grind
    simp [newConn, Conn.outstanding, one]
  have reached := AlongRun.invariant (fun _ _ => Starting.step) acks starting
  exact fun stuck => absurd (reached.slow.symm.trans stuck.1) nofun

/-- The first connection after the boot. -/
def firstConnect : Endpoint :=
  openActive ⟨newConn 0x0A00020F 50152 0x0A000202 80 1000 0, fun _ => 0, 0, []⟩

/-- A segment of the peer of `firstConnect`. -/
def fromPeer (ackNum : UInt32) (flags : UInt8) : TcpEvent :=
  .arrive ⟨80, 50152, 7, ackNum, flags, 4096, []⟩

/-- The handshake, two bytes, and their acknowledgements one by one. -/
theorem divides_run_handshake :
    (runFrom TcpEvent.apply firstConnect
      [fromPeer 1001 (tcpFlagSyn ||| tcpFlagAck), fromPeer 1001 tcpFlagAck, .sendData [1, 2],
        fromPeer 1002 tcpFlagAck, fromPeer 1003 tcpFlagAck]).conn.Divides :=
  divides_run (.active ..)
    ⟨fun acknowledges => absurd acknowledges (by decide), fun _ _ => by decide, trivial,
      fun _ _ => by decide, fun _ _ => by decide, trivial⟩

/-- An acknowledgement of bytes that were never sent brings the window next to
its wrap-around. -/
theorem cwnd_reaches_zero : Opened firstConnect ∧
    ¬ (runFrom TcpEvent.apply firstConnect
      [fromPeer 1001 (tcpFlagSyn ||| tcpFlagAck), fromPeer 1001 tcpFlagAck,
        .sendData (List.replicate 998 0), fromPeer 0xFFFFFFFF tcpFlagAck,
        .sendData [0], .sendData [0]]).conn.Divides :=
  ⟨.active .., by decide +kernel⟩

end KnitOS.Net
