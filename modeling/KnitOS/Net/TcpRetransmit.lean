import KnitOS.Net.TcpFlow

/-!
# The retransmission queue

The queue should hold, in order, exactly the data segments that end after
`send_una`.  It has five places, and `tcp_ack_retransmit` keeps a segment that
ends where the acknowledgement does.
-/

namespace KnitOS.Net

open Lib

/-- A run with the data segments that were sent, oldest first. -/
structure Outbox where
  endpoint : Endpoint
  sent : List (UInt32 × List UInt8)

/-- The sequence number and the bytes of an entry. -/
def Queued.content (entry : Queued) : UInt32 × List UInt8 :=
  (entry.seq, entry.data)

def Transmission.content (transmission : Transmission) : UInt32 × List UInt8 :=
  (transmission.conn.sendSeq, transmission.chunk)

/-- A part of the segment is not acknowledged. -/
def isUnacknowledged (una : UInt32) (segment : UInt32 × List UInt8) : Bool :=
  decide (una.toNat < segment.1.toNat + segment.2.length)

namespace Outbox

def step (outbox : Outbox) (event : TcpEvent) : Outbox :=
  { endpoint := event.apply outbox.endpoint
    sent :=
      match event with
      | .sendData data =>
        outbox.sent ++
          (transmissions data outbox.endpoint).map Transmission.content
      | _ => outbox.sent }

/-- The queue holds exactly the segments that are not acknowledged. -/
def Exact (outbox : Outbox) : Prop :=
  outbox.endpoint.conn.queue.map Queued.content =
    outbox.sent.filter (isUnacknowledged outbox.endpoint.conn.sendUna)

instance (outbox : Outbox) : Decidable outbox.Exact :=
  inferInstanceAs (Decidable (_ = _))

end Outbox

/-- Every call of `tcp_add_retransmit` in the loop finds a free place. -/
def LoopHasPlaces : Nat → List UInt8 → Endpoint → Prop
  | 0, _, _ => True
  | rounds + 1, data, endpoint =>
    (data = [] ∨ windowAvailable endpoint.conn = 0 ∨
        cwndAvailable endpoint.conn = 0) ∨
      endpoint.conn.queue.length < tcpMaxRetransmit ∧
        LoopHasPlaces rounds
          (data.drop (nextChunk endpoint.conn data).length)
          (transmit (nextChunk endpoint.conn data) endpoint)

instance LoopHasPlaces.decide : ∀ (rounds : Nat) (data : List UInt8) (endpoint : Endpoint),
      Decidable (LoopHasPlaces rounds data endpoint)
  | 0, _, _ => isTrue trivial
  | rounds + 1, data, endpoint =>
    @instDecidableOr _ _ inferInstance
      (@instDecidableAnd _ _ inferInstance
        (LoopHasPlaces.decide rounds
          (data.drop (nextChunk endpoint.conn data).length)
          (transmit (nextChunk endpoint.conn data) endpoint)))

/-- A call of `tcp_send_data` that is accepted does not reach the end of the
sequence numbers and finds a free place for every segment. -/
def CallHasPlaces (data : List UInt8) (endpoint : Endpoint) : Prop :=
  match tcpConnectionSend endpoint.conn data with
  | none => True
  | some sending =>
    endpoint.conn.sendSeq.toNat + data.length < 2 ^ 32 ∧
      LoopHasPlaces data.length data (endpoint.setConn sending)

instance (data : List UInt8) (endpoint : Endpoint) : Decidable (CallHasPlaces data endpoint) := by
  unfold CallHasPlaces
  split
  · exact isTrue trivial
  · exact inferInstance

/-- Sequence numbers do not wrap and acknowledgements are of data that was
sent; the queue is never full when a segment is added, and no acknowledgement
ends where a queued segment does. -/
def Outbox.Permits (outbox : Outbox) : TcpEvent → Prop
  | .arrive segment =>
    segment.acknowledges = true →
    outbox.endpoint.conn.sendUna < segment.ackNum →
      segment.ackNum ≤ outbox.endpoint.conn.sendSeq ∧
        ∀ entry ∈ outbox.endpoint.conn.queue,
          entry.finish ≠ segment.ackNum
  | .sendData data =>
    CallHasPlaces data outbox.endpoint
  | _ => True

instance Outbox.Permits.decide (outbox : Outbox) : ∀ event, Decidable (outbox.Permits event)
  | .arrive _ => inferInstanceAs (Decidable (_ → _ → _ ∧ _))
  | .sendData data =>
    inferInstanceAs (Decidable (CallHasPlaces data outbox.endpoint))
  | .receive _ => isTrue trivial
  | .timers => isTrue trivial

/-- What every state of a run within the conditions satisfies. -/
structure Tracks (conn : Conn) (sent : List (UInt32 × List UInt8)) : Prop where
  segments : 0 < conn.mss.toNat
  ordered : conn.sendUna.toNat ≤ conn.sendSeq.toNat
  past : ∀ segment ∈ sent, segment.1.toNat + segment.2.length ≤ conn.sendSeq.toNat
  exactly : conn.queue.map Queued.content = sent.filter (isUnacknowledged conn.sendUna)

variable {endpoint : Endpoint}

theorem transmit_queue {endpoint : Endpoint} (chunk : List UInt8)
    (place : endpoint.conn.queue.length < tcpMaxRetransmit) :
    (transmit chunk endpoint).conn.queue.map Queued.content =
      endpoint.conn.queue.map Queued.content ++ [(endpoint.conn.sendSeq, chunk)] := by
  unfold transmit tcpAddRetransmit
  dsimp only
  rw [tcpSend_conn, if_neg (Nat.not_le.mpr place)]
  obtain ⟨cwnd, slow, grown⟩ := growWindow_eq (UInt32.ofNat chunk.length)
    { endpoint.conn with
      queue := endpoint.conn.queue ++ [
        { seq := endpoint.conn.sendSeq
          timeout := (endpoint.tcpSend endpoint.conn.sendSeq
            endpoint.conn.recvSeq (tcpFlagAck ||| tcpFlagPsh) chunk).time +
              tcpRtoInitial
          rto := tcpRtoInitial
          retries := 0
          data := chunk }]
      sendSeq := endpoint.conn.sendSeq + UInt32.ofNat chunk.length }
  simp only [setConn_conn]
  rw [grown]
  simp [Queued.content]

/-- The loop has places if and only if the segments it sends, if any, fit into
the queue with those that are there. -/
theorem loopHasPlaces_iff : ∀ (rounds : Nat) (data : List UInt8) (endpoint : Endpoint),
    LoopHasPlaces rounds data endpoint ↔
      loopTransmissions rounds data endpoint = [] ∨
        endpoint.conn.queue.length + (loopTransmissions rounds data endpoint).length ≤
          tcpMaxRetransmit := by
  intro rounds
  induction rounds with
  | zero =>
    intro _ _
    simp [LoopHasPlaces, loopTransmissions]
  | succ rounds ih =>
    intro data endpoint
    unfold LoopHasPlaces loopTransmissions
    by_cases stops : data = [] ∨ windowAvailable endpoint.conn = 0 ∨ cwndAvailable endpoint.conn = 0
    · rw [if_pos stops]
      simp [stops]
    · rw [if_neg stops]
      dsimp only
      rw [or_iff_right stops, or_iff_right (List.cons_ne_nil _ _), List.length_cons, ih]
      by_cases place : endpoint.conn.queue.length < tcpMaxRetransmit
      · have longer := congrArg List.length
          (transmit_queue (nextChunk endpoint.conn data) place)
        simp only [List.length_map, List.length_append, List.length_singleton] at longer
        rw [longer, ← List.length_eq_zero_iff]
        omega
      · omega

variable {sent : List (UInt32 × List UInt8)}

theorem Tracks.transmit (tracks : Tracks endpoint.conn sent)
    {chunk : List UInt8} (nonempty : 0 < chunk.length)
    (noWrap : endpoint.conn.sendSeq.toNat + chunk.length < 2 ^ 32)
    (place : endpoint.conn.queue.length < tcpMaxRetransmit) :
    (transmit chunk endpoint).conn.sendSeq.toNat = endpoint.conn.sendSeq.toNat + chunk.length ∧
      Tracks (transmit chunk endpoint).conn (sent ++ [(endpoint.conn.sendSeq, chunk)]) := by
  have queued := transmit_queue chunk place
  obtain ⟨queue, cwnd, slow, transmitted⟩ := transmit_eq endpoint chunk
  have sendSeq : (Net.transmit chunk endpoint).conn.sendSeq.toNat =
      endpoint.conn.sendSeq.toNat + chunk.length := by
    rw [transmitted]
    simp only [UInt32.toNat_add, UInt32.toNat_ofNat']
    omega
  have sendUna : (Net.transmit chunk endpoint).conn.sendUna = endpoint.conn.sendUna := by
    rw [transmitted]
  have ordered := tracks.ordered
  refine ⟨sendSeq, ?_, ?_, ?_, ?_⟩
  · rw [transmitted]
    exact tracks.segments
  · rw [sendUna, sendSeq]
    omega
  · intro segment member
    rw [sendSeq]
    rcases List.mem_append.mp member with earlier | now
    · have := tracks.past segment earlier
      omega
    · exact Nat.le_of_eq (by rw [List.mem_singleton.mp now])
  · have unacknowledged : isUnacknowledged endpoint.conn.sendUna
        (endpoint.conn.sendSeq, chunk) = true := by
      unfold isUnacknowledged
      exact decide_eq_true (by dsimp only; omega)
    rw [queued, sendUna, tracks.exactly, List.filter_append,
      List.filter_cons_of_pos unacknowledged, List.filter_nil]

theorem sendLoop_tracks : ∀ (rounds : Nat) (data : List UInt8) (endpoint : Endpoint)
    (sent : List (UInt32 × List UInt8)), Tracks endpoint.conn sent →
    endpoint.conn.sendSeq.toNat + data.length < 2 ^ 32 → LoopHasPlaces rounds data endpoint →
    Tracks (sendLoop rounds data endpoint).2.conn
      (sent ++ (loopTransmissions rounds data endpoint).map Transmission.content) := by
  intro rounds
  induction rounds with
  | zero =>
    intro data endpoint sent tracks _ _
    simpa [sendLoop, loopTransmissions] using tracks
  | succ rounds ih =>
    intro data endpoint sent tracks noWrap places
    unfold sendLoop loopTransmissions
    unfold LoopHasPlaces at places
    by_cases stops : data = [] ∨ windowAvailable endpoint.conn = 0 ∨ cwndAvailable endpoint.conn = 0
    · rw [if_pos stops, if_pos stops]
      simpa using tracks
    · rw [if_neg stops, if_neg stops]
      dsimp only
      obtain ⟨place, morePlaces⟩ := places.resolve_left stops
      set chunk := nextChunk endpoint.conn data with chunkEq
      have nonempty := length_nextChunk_pos tracks.segments stops
      rw [← chunkEq] at nonempty
      have chunkLength : chunk.length ≤ data.length := by
        rw [chunkEq]
        unfold nextChunk
        rw [List.length_take]
        omega
      obtain ⟨sendSeq, tracksNext⟩ := tracks.transmit nonempty (by omega) place
      have rest := ih (data.drop chunk.length)
        (transmit chunk endpoint) _ tracksNext (by rw [sendSeq, List.length_drop]; omega) morePlaces
      rw [List.map_cons, List.append_cons]
      exact rest

/-- An acknowledgement that ends inside a segment, or before the first, drops
exactly the segments it covers. -/
theorem Tracks.advanceUna {conn : Conn}
    (tracks : Tracks conn sent) {ackNum : UInt32} (permitted : conn.sendUna < ackNum →
      ackNum ≤ conn.sendSeq ∧ ∀ entry ∈ conn.queue, entry.finish ≠ ackNum) :
    Tracks (advanceUna ackNum conn) sent := by
  rcases advanceUna_eq ackNum conn with old | newer
  · rw [old.2]
    exact tracks
  · obtain ⟨newer, cwnd, slow, advanced⟩ := newer
    obtain ⟨sentOnly, apart⟩ := permitted newer
    rw [advanced]
    refine ⟨tracks.segments, UInt32.le_iff_toNat_le.mp sentOnly, tracks.past, ?_⟩
    have unaLess := UInt32.lt_iff_toNat_lt.mp newer
    have finishes : ∀ entry ∈ conn.queue, decide (ackNum ≤ entry.finish) =
          isUnacknowledged ackNum entry.content := by
      intro entry member
      have inSent : entry.content ∈ sent := by
        have inQueue : entry.content ∈ conn.queue.map Queued.content := List.mem_map_of_mem member
        rw [tracks.exactly] at inQueue
        exact (List.mem_filter.mp inQueue).1
      have past : entry.seq.toNat + entry.data.length ≤ conn.sendSeq.toNat :=
        tracks.past entry.content inSent
      have bound := conn.sendSeq.toNat_lt
      have finish : entry.finish.toNat = entry.seq.toNat + entry.data.length := by
        unfold Queued.finish
        simp only [UInt32.toNat_add, UInt32.toNat_ofNat']
        omega
      have different : entry.finish.toNat ≠ ackNum.toNat := fun same =>
        apart entry member (UInt32.toNat_inj.mp same)
      unfold isUnacknowledged Queued.content
      rw [decide_eq_decide, UInt32.le_iff_toNat_le]
      dsimp only
      omega
    change (conn.queue.filter fun entry =>
      decide (ackNum ≤ entry.finish)).map Queued.content = sent.filter (isUnacknowledged ackNum)
    rw [List.filter_congr finishes]
    have narrower : sent.filter (isUnacknowledged ackNum) =
        (sent.filter (isUnacknowledged conn.sendUna)).filter (isUnacknowledged ackNum) := by
      rw [List.filter_filter]
      refine List.filter_congr ?_
      intro segment _
      unfold isUnacknowledged
      rw [← Bool.decide_and, decide_eq_decide]
      omega
    rw [narrower, ← tracks.exactly, List.filter_map]
    rfl

theorem Tracks.step {outbox : Outbox}
    (tracks : Tracks outbox.endpoint.conn outbox.sent) (event : TcpEvent)
    (permitted : outbox.Permits event) :
    Tracks (outbox.step event).endpoint.conn (outbox.step event).sent := by
  cases event with
  | arrive segment =>
    obtain ⟨_, _, _, _, _, isNext⟩ := handleSegment_eq segment outbox.endpoint
    simp only [Outbox.step, TcpEvent.apply]
    rw [isNext]
    split
    · rename_i acknowledges
      obtain ⟨state, pending, opened⟩ := ackState_eq segment outbox.endpoint.conn
      have openedTracks : Tracks (ackState segment outbox.endpoint.conn) outbox.sent := by
        rw [opened]
        exact ⟨tracks.segments, tracks.ordered, tracks.past, tracks.exactly⟩
      have advanced : Tracks (Net.advanceUna segment.ackNum
            (ackState segment outbox.endpoint.conn)) outbox.sent := by
        refine openedTracks.advanceUna ?_
        rw [opened]
        exact permitted acknowledges
      exact ⟨advanced.segments, advanced.ordered, advanced.past, advanced.exactly⟩
    · exact ⟨tracks.segments, tracks.ordered, tracks.past, tracks.exactly⟩
  | sendData data =>
    change Tracks (tcpSendData data outbox.endpoint).2.conn (outbox.sent ++
      (transmissions data outbox.endpoint).map Transmission.content)
    unfold tcpSendData transmissions
    replace permitted : CallHasPlaces data outbox.endpoint := permitted
    unfold CallHasPlaces at permitted
    cases accepted : tcpConnectionSend outbox.endpoint.conn data with
    | none => simpa using tracks
    | some sending =>
      rw [accepted] at permitted
      obtain ⟨noWrap, places⟩ := permitted
      obtain ⟨_, _, sendingEq⟩ := tcpConnectionSend_some accepted
      refine sendLoop_tracks _ _ _ _ ?_ ?_ places
      · rw [setConn_conn, sendingEq]
        exact ⟨tracks.segments, tracks.ordered, tracks.past, tracks.exactly⟩
      · rw [setConn_conn, sendingEq]
        exact noWrap
  | receive maxLen =>
    exact ⟨tracks.segments, tracks.ordered, tracks.past, tracks.exactly⟩
  | timers =>
    obtain ⟨queue, state, valid, sameConn, sameContent, _⟩ := processTimers_eq outbox.endpoint
    change Tracks (processTimers outbox.endpoint).conn outbox.sent
    rw [sameConn]
    exact ⟨tracks.segments, tracks.ordered, tracks.past, sameContent.trans tracks.exactly⟩

theorem Opened.tracks (opened : Opened endpoint)
    (noWrap : endpoint.conn.sendUna ≤ endpoint.conn.sendSeq) : Tracks endpoint.conn [] := by
  obtain ⟨srcIp, srcPort, destIp, destPort, isn, now, state, recvSeq, opening⟩ := opened.conn_eq
  refine ⟨?_, UInt32.le_iff_toNat_le.mp noWrap, ?_, ?_⟩
  · rw [opening]
    exact (by decide : 0 < (1460 : UInt16).toNat)
  · intro segment member
    cases member
  · rw [opening]
    rfl

/-- The queue is exact in every run in which no segment is added to a full
queue and no acknowledgement ends where a queued segment does. -/
theorem exact_of_permitted {endpoint : Endpoint} (opened : Opened endpoint)
    (noWrap : endpoint.conn.sendUna ≤ endpoint.conn.sendSeq)
    {events : List TcpEvent}
    (permitted : AlongRun Outbox.step Outbox.Permits ⟨endpoint, []⟩ events) :
    (runFrom Outbox.step ⟨endpoint, []⟩ events).Exact := by
  have keeps : ∀ (outbox : Outbox) (event : TcpEvent),
      Tracks outbox.endpoint.conn outbox.sent → outbox.Permits event →
      Tracks (outbox.step event).endpoint.conn (outbox.step event).sent :=
    fun _ event tracks permitted => tracks.step event permitted
  exact (permitted.invariant keeps (opened.tracks noWrap)).exactly

/-- Two segments of one byte, the timers, and an acknowledgement of the SYN
only; a third segment and the timers again. -/
theorem exact_of_two_segments : (runFrom Outbox.step ⟨passiveEndpoint, []⟩
      [.arrive (ackOf 1001 4096), .sendData [1], .sendData [2], .timers,
        .arrive (ackOf 1001 4096), .sendData [3], .timers]).Exact :=
  exact_of_permitted opened_passiveEndpoint (by decide) (by decide +kernel)

/-- A byte that is acknowledged stays in the queue, and the sixth segment in
flight is missing from it. -/
theorem not_exact_of_peer : ¬ (runFrom Outbox.step ⟨passiveEndpoint, []⟩
        [.arrive (ackOf 1001 4096), .sendData [1], .arrive (ackOf 1002 4096)]).Exact ∧
      ¬ (runFrom Outbox.step ⟨passiveEndpoint, []⟩
        [.arrive (ackOf 1001 4096), .sendData [1], .sendData [2],
          .sendData [3], .sendData [4], .sendData [5], .sendData [6]]).Exact := by
  decide +kernel

end KnitOS.Net
