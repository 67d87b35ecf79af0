import KnitOS.Net.TcpFlow

/-!
# Progress of `tcp_send_data`

When the peer has acknowledged everything and its window is open, a call should
send something.  But the acknowledgement in the SYN-ACK is not taken into
`send_una`, and the transmit buffer is never emptied.
-/

namespace KnitOS.Net

open Lib

/-- A run with the last acknowledgement and window the peer sent. -/
structure Heard where
  endpoint : Endpoint
  acked : UInt32
  window : UInt16

namespace Heard

def step (heard : Heard) (event : TcpEvent) : Heard :=
  let next := event.apply heard.endpoint
  match event with
  | .arrive segment =>
    { endpoint := next
      acked :=
        if segment.has tcpFlagAck then segment.ackNum else heard.acked
      window := segment.window }
  | _ => { heard with endpoint := next }

/-- The connection is established, the peer acknowledged everything and its
window is open. -/
structure Ready (heard : Heard) : Prop where
  established : heard.endpoint.conn.state = .established
  acknowledged : heard.acked = heard.endpoint.conn.sendSeq
  opened : 0 < heard.window

instance (heard : Heard) : Decidable heard.Ready :=
  decidable_of_iff
    (heard.endpoint.conn.state = .established ∧
      heard.acked = heard.endpoint.conn.sendSeq ∧ 0 < heard.window)
    ⟨fun ready => ⟨ready.1, ready.2.1, ready.2.2⟩,
      fun ready => ⟨ready.established, ready.acknowledged, ready.opened⟩⟩

end Heard

/-- `tcp_send_data` returns a positive count. -/
def Sends (data : List UInt8) (endpoint : Endpoint) : Prop :=
  0 < (tcpSendData data endpoint).1.getD 0

instance (data : List UInt8) (endpoint : Endpoint) : Decidable (Sends data endpoint) :=
  inferInstanceAs (Decidable (_ < _))

/-- The segment size and the capacity of the transmit buffer. -/
structure Conn.Fits (conn : Conn) : Prop where
  mss : conn.mss = 1460
  txBuffer : conn.txBuffer.length ≤ tcpTxBufferSize

theorem Conn.Fits.apply {endpoint : Endpoint} (fits : endpoint.conn.Fits)
    (event : TcpEvent) : (event.apply endpoint).conn.Fits := by
  cases event with
  | arrive segment =>
    obtain ⟨_, _, _, _, _, isNext⟩ := handleSegment_eq segment endpoint
    obtain ⟨_, _, _, _, _, _, isAck⟩ := handleAck_eq segment endpoint.conn
    simp only [TcpEvent.apply]
    rw [isNext, isAck]
    split
    · exact ⟨fits.mss, fits.txBuffer⟩
    · exact ⟨fits.mss, fits.txBuffer⟩
  | sendData data =>
    change (tcpSendData data endpoint).2.conn.Fits
    rcases tcpSendData_cases data endpoint with refused | loop
    · rw [refused.1]
      exact fits
    · obtain ⟨_, room, ready, readyConn, result, _⟩ := loop
      obtain ⟨queue, cwnd, slow, looped⟩ := sendLoop_eq data.length data ready
      have bound := fits.txBuffer
      rw [result, looped, readyConn]
      refine ⟨fits.mss, ?_⟩
      change (endpoint.conn.txBuffer ++ data).length ≤ _
      rw [List.length_append]
      omega
  | receive maxLen => exact ⟨fits.mss, fits.txBuffer⟩
  | timers =>
    obtain ⟨queue, state, valid, sameConn, _⟩ := processTimers_eq endpoint
    change (processTimers endpoint).conn.Fits
    rw [sameConn]
    exact ⟨fits.mss, fits.txBuffer⟩

theorem Heard.step_endpoint (heard : Heard) (event : TcpEvent) :
    (heard.step event).endpoint = event.apply heard.endpoint := by
  cases event <;> rfl

theorem Opened.fits {endpoint : Endpoint} (opened : Opened endpoint) : endpoint.conn.Fits := by
  obtain ⟨srcIp, srcPort, destIp, destPort, isn, now, state, recvSeq, opening⟩ := opened.conn_eq
  rw [opening]
  exact ⟨rfl, Nat.zero_le _⟩

theorem sendLoop_pos_iff {data : List UInt8} {endpoint : Endpoint}
    (segments : 0 < endpoint.conn.mss.toNat) (someData : data ≠ []) :
    0 < (sendLoop data.length data endpoint).1 ↔
      windowAvailable endpoint.conn ≠ 0 ∧ cwndAvailable endpoint.conn ≠ 0 := by
  cases data with
  | nil => exact absurd rfl someData
  | cons byte rest =>
    rw [List.length_cons]
    unfold sendLoop
    by_cases stops : byte :: rest = [] ∨
      windowAvailable endpoint.conn = 0 ∨ cwndAvailable endpoint.conn = 0
    · rw [if_pos stops]
      constructor
      · intro positive
        exact absurd positive (Nat.lt_irrefl 0)
      · rintro ⟨someWindow, someCwnd⟩
        rcases stops with empty | noWindow | noCwnd
        · cases empty
        · exact absurd noWindow someWindow
        · exact absurd noCwnd someCwnd
    · rw [if_neg stops]
      have nonempty := length_nextChunk_pos segments stops
      constructor
      · intro _
        exact ⟨fun noWindow => stops (Or.inr (Or.inl noWindow)),
          fun noCwnd => stops (Or.inr (Or.inr noCwnd))⟩
      · intro _
        exact Nat.lt_of_lt_of_le nonempty (Nat.le_add_right _ _)

theorem sub_ne_zero_iff (first second : UInt32) : first - second ≠ 0 ↔ first ≠ second := by
  constructor
  · intro different same
    rw [same, UInt32.sub_self] at different
    exact different rfl
  · intro different zero
    exact different (by grind)

/-- An established connection with the usual bounds sends exactly when the
data fits what is left of the transmit buffer and neither window equals what
is outstanding. -/
theorem sends_iff_of_fits {endpoint : Endpoint} {data : List UInt8} (fits : endpoint.conn.Fits)
    (established : endpoint.conn.state = .established) (someData : data ≠ []) :
    Sends data endpoint ↔ endpoint.conn.txBuffer.length + data.length ≤ tcpTxBufferSize ∧
        endpoint.conn.sendWindow.toUInt32 ≠ endpoint.conn.outstanding ∧
        endpoint.conn.cwnd ≠ endpoint.conn.outstanding := by
  have positive := List.length_pos_iff.mpr someData
  unfold Sends tcpSendData tcpConnectionSend
  rw [if_neg (not_not.mpr established)]
  by_cases full : tcpTxBufferSize - endpoint.conn.txBuffer.length < data.length
  · rw [if_pos full]
    constructor
    · intro sends
      exact absurd sends (Nat.lt_irrefl 0)
    · rintro ⟨room, _⟩
      omega
  · rw [if_neg full]
    have loop := @sendLoop_pos_iff data (endpoint.setConn { endpoint.conn with
        txBuffer := endpoint.conn.txBuffer ++ data })
      (by
        change 0 < endpoint.conn.mss.toNat
        rw [fits.mss]
        decide) someData
    refine loop.trans ?_
    change endpoint.conn.sendWindow.toUInt32 - endpoint.conn.outstanding ≠ 0 ∧
      endpoint.conn.cwnd - endpoint.conn.outstanding ≠ 0 ↔ _
    rw [sub_ne_zero_iff, sub_ne_zero_iff]
    constructor
    · intro windows
      exact ⟨by omega, windows⟩
    · intro conditions
      exact conditions.2

/-- Where the connection took over what the peer said, nothing is outstanding and
the window of the peer is not in the way. -/
theorem Heard.Ready.unblocked {heard : Heard} (ready : heard.Ready)
    (acked : heard.endpoint.conn.sendUna = heard.acked)
    (window : heard.endpoint.conn.sendWindow = heard.window) :
    heard.endpoint.conn.outstanding = 0 ∧
      heard.endpoint.conn.sendWindow.toUInt32 ≠ heard.endpoint.conn.outstanding := by
  have nothing : heard.endpoint.conn.outstanding = 0 := by
    unfold Conn.outstanding
    rw [acked, ready.acknowledged, UInt32.sub_self]
  refine ⟨nothing, ?_⟩
  rw [nothing, window]
  intro closed
  have zero := congrArg UInt32.toNat closed
  have opened := UInt16.lt_iff_toNat_lt.mp ready.opened
  rw [UInt16.toNat_toUInt32] at zero
  exact Nat.ne_of_gt opened zero

/-- In every reachable state in which the peer acknowledged everything and
left its window open, `tcp_send_data` makes progress exactly when the transmit
buffer has room and neither window equals what is counted as outstanding. -/
theorem sends_iff_after {endpoint : Endpoint} (opened : Opened endpoint)
    (acked : UInt32) (window : UInt16) (events : List TcpEvent)
    (ready : (runFrom Heard.step ⟨endpoint, acked, window⟩ events).Ready)
    {data : List UInt8} (someData : 1 ≤ data.length) :
    let conn := (runFrom Heard.step ⟨endpoint, acked, window⟩ events).endpoint.conn
    Sends data (runFrom Heard.step ⟨endpoint, acked, window⟩ events).endpoint ↔
      conn.txBuffer.length + data.length ≤ tcpTxBufferSize ∧
        conn.sendWindow.toUInt32 ≠ conn.outstanding ∧ conn.cwnd ≠ conn.outstanding := by
  have keeps : ∀ (heard : Heard) (event : TcpEvent),
      heard.endpoint.conn.Fits → (heard.step event).endpoint.conn.Fits := by
    intro heard event fits
    rw [Heard.step_endpoint]
    exact fits.apply event
  have fits : (runFrom Heard.step ⟨endpoint, acked, window⟩ events).endpoint.conn.Fits :=
    runFrom_invariant keeps opened.fits events
  exact sends_iff_of_fits fits ready.established (List.length_pos_iff.mp someData)

/-- After the handshake of a passive open a call sends. -/
theorem sends_iff_after_handshake : Sends [1] (runFrom Heard.step ⟨passiveEndpoint, 1000, 4096⟩
      [.arrive (ackOf 1001 4096)]).endpoint := (sends_iff_after opened_passiveEndpoint 1000 4096
    [.arrive (ackOf 1001 4096)] (by decide +kernel)
    (by decide : 1 ≤ [1].length)).mpr (by decide +kernel)

/-- A connection of `tcp_connect` with initial sequence number 1000. -/
def activeEndpoint : Endpoint :=
  openActive ⟨newConn 1 22 2 40000 1000 0, fun _ => 0, 0, []⟩

/-- The SYN-ACK that answers the SYN of `activeEndpoint`. -/
def synAck : Segment :=
  { srcPort := 40000, destPort := 22, seqNum := 7, ackNum := 1001
    flags := tcpFlagSyn ||| tcpFlagAck, window := 4096, payload := [] }

/-- The state after the handshake of `activeEndpoint`. -/
def afterSynAck : Heard :=
  runFrom Heard.step ⟨activeEndpoint, 1000, 0⟩ [.arrive synAck]

/-- The peer took one byte of a buffer of data and acknowledged it. -/
def afterFullBuffer : Heard :=
  runFrom Heard.step ⟨passiveEndpoint, 1000, 4096⟩
    [.arrive (ackOf 1001 1), .sendData (List.replicate 4096 0),
      .arrive (ackOf 1002 4096)]

/-- After the handshake of an active open nothing can be sent, and a transmit
buffer that was full stays full. -/
theorem ready_not_sends : (afterSynAck.Ready ∧ ¬ Sends [1] afterSynAck.endpoint) ∧
      (afterFullBuffer.Ready ∧ ¬ Sends [1] afterFullBuffer.endpoint) := by
  decide +kernel

end KnitOS.Net
