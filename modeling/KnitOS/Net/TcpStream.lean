import KnitOS.Net.TcpFlow

/-!
# The received byte stream

Segments arrive in any order, more than once or never, and the application
reads in between.  What it has read should be a prefix of the stream, and the
end reported only when everything was read.
-/

namespace KnitOS.Net

open Lib

/-- A run with the bytes the application has read. -/
structure Reading where
  endpoint : Endpoint
  delivered : List UInt8

/-- The bytes received so far, read or not. -/
def Reading.received (reading : Reading) : List UInt8 :=
  reading.delivered ++ reading.endpoint.conn.rxBuffer

/-- What can happen; an arriving segment comes with its place in the
stream. -/
inductive StreamEvent where
  | arrive (offset : Nat) (segment : Segment)
  | sendData (data : List UInt8)
  | receive (maxLen : Nat)
  | timers

def StreamEvent.event : StreamEvent → TcpEvent
  | .arrive _ segment => .arrive segment
  | .sendData data => .sendData data
  | .receive maxLen => .receive maxLen
  | .timers => .timers

namespace Reading

def step (reading : Reading) (event : StreamEvent) : Reading :=
  { endpoint := event.event.apply reading.endpoint
    delivered :=
      match event with
      | .receive maxLen =>
        reading.delivered ++
          (tcpConnectionReceive reading.endpoint.conn maxLen).1
      | _ => reading.delivered }

/-- The end of the stream as `socket_tcp_try_recv` tests it after a FIN. -/
def AtEnd (reading : Reading) : Prop :=
  reading.endpoint.conn.state = .closeWait ∧
    reading.endpoint.conn.rxBuffer = []

/-- A prefix of the stream was read, and all of it when the end is
reported. -/
def Faithful (stream : List UInt8) (reading : Reading) : Prop :=
  reading.delivered <+: stream ∧
    (reading.AtEnd → reading.delivered = stream)

instance (reading : Reading) : Decidable reading.AtEnd :=
  inferInstanceAs (Decidable (_ ∧ _))

instance (stream : List UInt8) (reading : Reading) : Decidable (reading.Faithful stream) :=
  inferInstanceAs (Decidable (_ ∧ (_ → _)))

end Reading

/-- The segment carries the bytes of the stream at its offset under the right
sequence number, and a FIN only at the end of the stream. -/
structure CarriesStream (stream : List UInt8) (base : UInt32) (offset : Nat)
    (segment : Segment) : Prop where
  seqNum : segment.seqNum = base + UInt32.ofNat offset
  payload : segment.payload = (stream.drop offset).take segment.payload.length
  inside : offset + segment.payload.length ≤ stream.length
  fin : segment.has tcpFlagFin = true → offset + segment.payload.length = stream.length
  noSyn : segment.has tcpFlagSyn = false
  noRst : segment.has tcpFlagRst = false

instance (stream : List UInt8) (base : UInt32) (offset : Nat) (segment : Segment) :
    Decidable (CarriesStream stream base offset segment) :=
  decidable_of_iff
    (segment.seqNum = base + UInt32.ofNat offset ∧
      segment.payload = (stream.drop offset).take segment.payload.length ∧
      offset + segment.payload.length ≤ stream.length ∧
      (segment.has tcpFlagFin = true →
        offset + segment.payload.length = stream.length) ∧
      segment.has tcpFlagSyn = false ∧ segment.has tcpFlagRst = false)
    ⟨fun ⟨seqNum, payload, inside, fin, noSyn, noRst⟩ =>
        ⟨seqNum, payload, inside, fin, noSyn, noRst⟩,
      fun carries => ⟨carries.seqNum, carries.payload, carries.inside,
        carries.fin, carries.noSyn, carries.noRst⟩⟩

/-- All segments come from the peer that sends the stream. -/
def StreamEvent.FromPeer (stream : List UInt8) (base : UInt32) : StreamEvent → Prop
  | .arrive offset segment => CarriesStream stream base offset segment
  | _ => True

instance (stream : List UInt8) (base : UInt32) :
    ∀ event, Decidable (StreamEvent.FromPeer stream base event)
  | .arrive _ _ => inferInstanceAs (Decidable (CarriesStream _ _ _ _))
  | .sendData _ => isTrue trivial
  | .receive _ => isTrue trivial
  | .timers => isTrue trivial

/-- On an established connection, a segment with the expected sequence number
is the one expected, and a FIN comes when everything before it has arrived and
its own data fits the buffer. -/
def Reading.Permits (stream : List UInt8) (reading : Reading) : StreamEvent → Prop
  | .arrive offset segment =>
    reading.endpoint.conn.state = .established →
      (segment.seqNum = reading.endpoint.conn.recvSeq →
        offset = reading.received.length) ∧
      (segment.has tcpFlagFin = true →
        reading.received.length = stream.length ∨
          segment.seqNum = reading.endpoint.conn.recvSeq ∧
            reading.endpoint.conn.rxBuffer.length +
              segment.payload.length ≤ tcpRxBufferSize)
  | _ => True

instance Reading.Permits.decide (stream : List UInt8) (reading : Reading) :
    ∀ event, Decidable (reading.Permits stream event)
  | .arrive _ _ => inferInstanceAs (Decidable (_ → (_ → _) ∧ (_ → _ ∨ _ ∧ _)))
  | .sendData _ => isTrue trivial
  | .receive _ => isTrue trivial
  | .timers => isTrue trivial

/-- What every state of a run within the conditions satisfies. -/
structure Reading.InStream (stream : List UInt8) (base : UInt32) (reading : Reading) : Prop where
  received : reading.received <+: stream
  expects : reading.endpoint.conn.state = .established → reading.endpoint.conn.recvSeq =
      base + UInt32.ofNat reading.received.length
  finished : reading.endpoint.conn.state ≠ .established → reading.endpoint.conn.state = .closed ∨
      reading.endpoint.conn.state = .closeWait ∧ reading.received = stream

/-- The part of a connection the stream is about. -/
structure SameReceiving (before after : Conn) : Prop where
  state : after.state = before.state
  rxBuffer : after.rxBuffer = before.rxBuffer
  recvSeq : after.recvSeq = before.recvSeq

/-- An acknowledgement does not touch the receiving side of a connection whose
handshake is over. -/
theorem handleAck_receiving (segment : Segment) {conn : Conn}
    (notReceived : conn.state ≠ .synReceived) (notClosing : conn.state ≠ .finWait1) :
    SameReceiving conn (handleAck segment conn) := by
  have sameState : ackState segment conn = conn := by
    unfold ackState
    dsimp only
    rw [if_neg notReceived, if_neg (fun closing => notClosing closing.1)]
  unfold handleAck
  rw [sameState]
  rcases advanceUna_eq segment.ackNum conn with old | newer
  · rw [old.2]
    exact ⟨rfl, rfl, rfl⟩
  · obtain ⟨_, cwnd, slow, advanced⟩ := newer
    rw [advanced]
    exact ⟨rfl, rfl, rfl⟩

variable {endpoint : Endpoint} {segment : Segment}

theorem handleControl_receiving
    (noSyn : segment.has tcpFlagSyn = false) (notReceived : endpoint.conn.state ≠ .synReceived)
    (notClosing : endpoint.conn.state ≠ .finWait1) :
    SameReceiving endpoint.conn (handleControl segment endpoint).conn := by
  unfold handleControl
  rw [noSyn, if_neg Bool.false_ne_true]
  split
  · exact handleAck_receiving segment notReceived notClosing
  · exact ⟨rfl, rfl, rfl⟩

theorem handleData_receiving {segment : Segment} {endpoint : Endpoint}
    (established : endpoint.conn.state = .established) :
    (handleData segment endpoint).conn.state = .established ∧
      ((segment.seqNum = endpoint.conn.recvSeq ∧ (handleData segment endpoint).conn.rxBuffer =
            endpoint.conn.rxBuffer ++ segment.payload ∧ (handleData segment endpoint).conn.recvSeq =
            endpoint.conn.recvSeq + UInt32.ofNat segment.payload.length) ∨
        (¬ (segment.payload ≠ [] ∧ segment.seqNum = endpoint.conn.recvSeq ∧
            endpoint.conn.rxBuffer.length + segment.payload.length ≤ tcpRxBufferSize) ∧
          (handleData segment endpoint).conn.rxBuffer = endpoint.conn.rxBuffer ∧
          (handleData segment endpoint).conn.recvSeq = endpoint.conn.recvSeq)) := by
  unfold handleData
  dsimp only
  split
  · rename_i taken
    rw [sendAck_conn]
    exact ⟨established, Or.inl ⟨taken.2.2.1, rfl, rfl⟩⟩
  · rename_i refused
    refine ⟨established, Or.inr ⟨?_, rfl, rfl⟩⟩
    rintro ⟨someData, expected, fits⟩
    exact refused ⟨someData, established, expected, fits⟩

theorem handleFin_receiving {segment : Segment} {endpoint : Endpoint}
    (established : endpoint.conn.state = .established) :
    (handleFin segment endpoint).conn.rxBuffer = endpoint.conn.rxBuffer ∧
      ((segment.has tcpFlagFin = true ∧ (handleFin segment endpoint).conn.state = .closeWait) ∨
        SameReceiving endpoint.conn (handleFin segment endpoint).conn) := by
  unfold handleFin
  dsimp only
  by_cases finishes : segment.has tcpFlagFin = true
  · rw [if_pos finishes, if_pos established, sendAck_conn]
    exact ⟨rfl, Or.inl ⟨finishes, rfl⟩⟩
  · rw [if_neg finishes]
    exact ⟨rfl, Or.inr ⟨rfl, rfl, rfl⟩⟩

theorem handleData_handleFin_over
    (finished : endpoint.conn.state = .closed ∨ endpoint.conn.state = .closeWait) :
    handleFin segment (handleData segment endpoint) = endpoint := by
  have notEstablished : endpoint.conn.state ≠ .established := by
    rcases finished with closed | waiting
    · rw [closed]
      decide
    · rw [waiting]
      decide
  have notClosing : endpoint.conn.state ≠ .finWait2 := by
    rcases finished with closed | waiting
    · rw [closed]
      decide
    · rw [waiting]
      decide
  have noData : handleData segment endpoint = endpoint := by
    unfold handleData
    dsimp only
    rw [if_neg (fun taken => notEstablished taken.2.1)]
  rw [noData]
  unfold handleFin
  dsimp only
  rw [if_neg notEstablished, if_neg notClosing, ite_self]

variable {stream : List UInt8}

theorem prefix_take_append {received : List UInt8} {length : Nat}
    (isPrefix : received <+: stream) (inside : received.length + length ≤ stream.length) :
    received ++ (stream.drop received.length).take length <+: stream ∧
      (received.length + length = stream.length →
        received ++ (stream.drop received.length).take length = stream) := by
  obtain ⟨rest, whole⟩ := isPrefix
  subst whole
  rw [List.drop_left]
  refine ⟨List.prefix_append_right_inj received |>.mpr (List.take_prefix length rest), ?_⟩
  intro all
  rw [List.length_append] at all
  rw [List.take_of_length_le (by omega)]

variable {base : UInt32}

/-- The data of a segment from the peer extends what was received by the next
bytes of the stream, or leaves it alone. -/
theorem handleData_inStream {delivered : List UInt8} {offset : Nat}
    (inStream : Reading.InStream stream base ⟨endpoint, delivered⟩)
    (established : endpoint.conn.state = .established)
    (carries : CarriesStream stream base offset segment)
    (permitted : Reading.Permits stream ⟨endpoint, delivered⟩ (.arrive offset segment)) :
    (handleData segment endpoint).conn.state = .established ∧ Reading.InStream stream base
        ⟨handleData segment endpoint, delivered⟩ ∧ (segment.has tcpFlagFin = true →
        Reading.received ⟨handleData segment endpoint, delivered⟩ = stream) := by
  obtain ⟨expected, finishing⟩ := permitted established
  obtain ⟨stays, outcome⟩ := @handleData_receiving segment endpoint established
  refine ⟨stays, ?_⟩
  rcases outcome with taken | refused
  · obtain ⟨inOrder, rxBuffer, recvSeq⟩ := taken
    have place := expected inOrder
    have received : Reading.received ⟨handleData segment endpoint, delivered⟩ =
          Reading.received ⟨endpoint, delivered⟩ ++ segment.payload := by
      change delivered ++ (handleData segment endpoint).conn.rxBuffer = _
      rw [rxBuffer, ← List.append_assoc]
      rfl
    have inside := carries.inside
    rw [place] at inside
    have extended := prefix_take_append inStream.received inside
    rw [← place, ← carries.payload, place] at extended
    refine ⟨⟨?_, ?_, ?_⟩, ?_⟩
    · rw [received]
      exact extended.1
    · intro _
      rw [received, List.length_append, UInt32.ofNat_add, ← UInt32.add_assoc,
        ← inStream.expects established]
      exact recvSeq
    · intro finished
      exact absurd stays finished
    · intro finishes
      rw [received]
      refine extended.2 ?_
      rw [← place]
      exact carries.fin finishes
  · obtain ⟨refused, rxBuffer, recvSeq⟩ := refused
    have received : Reading.received ⟨handleData segment endpoint, delivered⟩ =
          Reading.received ⟨endpoint, delivered⟩ := by
      change delivered ++ (handleData segment endpoint).conn.rxBuffer = _
      rw [rxBuffer]
      rfl
    refine ⟨⟨?_, ?_, ?_⟩, ?_⟩
    · rw [received]
      exact inStream.received
    · intro _
      rw [received, ← inStream.expects established]
      exact recvSeq
    · intro finished
      exact absurd stays finished
    · intro finishes
      rw [received]
      refine inStream.received.eq_of_length ?_
      rcases finishing finishes with complete | fits
      · exact complete
      · -- an expected segment that fits is only refused when it is empty
        have noData : segment.payload = [] := by
          by_contra someData
          exact refused ⟨someData, fits.1, fits.2⟩
        have atEnd := carries.fin finishes
        rw [noData, expected fits.1] at atEnd
        exact atEnd

theorem Reading.InStream.of_sameReceiving {before after : Endpoint} {delivered : List UInt8}
    (inStream : Reading.InStream stream base ⟨before, delivered⟩)
    (same : SameReceiving before.conn after.conn) :
    Reading.InStream stream base ⟨after, delivered⟩ := by
  have received : Reading.received ⟨after, delivered⟩ = Reading.received ⟨before, delivered⟩ := by
    unfold Reading.received
    rw [same.rxBuffer]
  refine ⟨?_, ?_, ?_⟩
  · rw [received]
    exact inStream.received
  · rw [received, same.state, same.recvSeq]
    exact inStream.expects
  · rw [received, same.state]
    exact inStream.finished

variable {reading : Reading}

theorem Reading.InStream.arrive (inStream : reading.InStream stream base)
    {offset : Nat} (carries : CarriesStream stream base offset segment)
    (permitted : reading.Permits stream (.arrive offset segment)) :
    (reading.step (.arrive offset segment)).InStream stream base := by
  obtain ⟨endpoint, delivered⟩ := reading
  change Reading.InStream stream base ⟨handleSegment segment endpoint, delivered⟩
  unfold handleSegment
  rw [carries.noRst, if_neg Bool.false_ne_true]
  have states : endpoint.conn.state = .established ∨
      endpoint.conn.state = .closed ∨ endpoint.conn.state = .closeWait := by
    by_cases established : endpoint.conn.state = .established
    · exact Or.inl established
    · rcases inStream.finished established with closed | waiting
      · exact Or.inr (Or.inl closed)
      · exact Or.inr (Or.inr waiting.1)
  have control : SameReceiving endpoint.conn (handleControl segment endpoint).conn := by
    refine handleControl_receiving carries.noSyn ?_ ?_
    · rcases states with state | state | state <;> rw [state] <;> decide
    · rcases states with state | state | state <;> rw [state] <;> decide
  have controlled := inStream.of_sameReceiving control
  set middle := handleControl segment endpoint with middleEq
  rcases states with established | finished
  · have stillPermitted : Reading.Permits stream ⟨middle, delivered⟩ (.arrive offset segment) := by
      intro _
      have conditions := permitted established
      unfold Reading.received at conditions ⊢
      rw [control.rxBuffer, control.recvSeq]
      exact conditions
    obtain ⟨stays, dataInStream, complete⟩ := handleData_inStream controlled
      (control.state.trans established) carries stillPermitted
    obtain ⟨rxBuffer, outcome⟩ := @handleFin_receiving segment (handleData segment middle) stays
    rcases outcome with finishes | same
    · have received : Reading.received ⟨handleFin segment (handleData segment middle), delivered⟩ =
            stream := by
        refine Eq.trans ?_ (complete finishes.1)
        unfold Reading.received
        rw [rxBuffer]
      refine ⟨?_, ?_, ?_⟩
      · exact received ▸ List.prefix_refl _
      · intro established
        rw [finishes.2] at established
        cases established
      · intro _
        exact Or.inr ⟨finishes.2, received⟩
    · exact dataInStream.of_sameReceiving same
  · have unchanged : handleFin segment (handleData segment middle) = middle :=
      handleData_handleFin_over (by rw [control.state]; exact finished)
    rw [unchanged]
    exact controlled

theorem Reading.InStream.receive (inStream : reading.InStream stream base)
    (maxLen : Nat) : (reading.step (.receive maxLen)).InStream stream base := by
  have received : (reading.step (.receive maxLen)).received = reading.received := by
    change reading.delivered ++ reading.endpoint.conn.rxBuffer.take maxLen ++
      reading.endpoint.conn.rxBuffer.drop maxLen = _
    rw [List.append_assoc, List.take_append_drop]
    rfl
  refine ⟨?_, ?_, ?_⟩
  · rw [received]
    exact inStream.received
  · rw [received]
    exact inStream.expects
  · rw [received]
    exact inStream.finished

theorem tcpSendData_receiving (data : List UInt8) (endpoint : Endpoint) :
    SameReceiving endpoint.conn (tcpSendData data endpoint).2.conn := by
  rcases tcpSendData_cases data endpoint with refused | loop
  · rw [refused.1]
    exact ⟨rfl, rfl, rfl⟩
  · obtain ⟨_, _, ready, readyConn, result, _⟩ := loop
    obtain ⟨queue, cwnd, slow, looped⟩ := sendLoop_eq data.length data ready
    rw [result, looped, readyConn]
    exact ⟨rfl, rfl, rfl⟩

variable (inStream : reading.InStream stream base)
include inStream

theorem Reading.InStream.timers : (reading.step .timers).InStream stream base := by
  obtain ⟨endpoint, delivered⟩ := reading
  obtain ⟨queue, state, valid, sameConn, _, closes⟩ := processTimers_eq endpoint
  change Reading.InStream stream base ⟨processTimers endpoint, delivered⟩
  rcases closes with ⟨stays, _⟩ | ⟨closed, _⟩
  · refine inStream.of_sameReceiving ?_
    rw [sameConn, stays]
    exact ⟨rfl, rfl, rfl⟩
  · have received : Reading.received ⟨processTimers endpoint, delivered⟩ =
        Reading.received ⟨endpoint, delivered⟩ := by
      unfold Reading.received
      rw [sameConn]
    refine ⟨?_, ?_, ?_⟩
    · rw [received]
      exact inStream.received
    · rw [sameConn, closed]
      intro established
      cases established
    · rw [sameConn, closed]
      intro _
      exact Or.inl rfl

theorem Reading.InStream.step {event : StreamEvent} (fromPeer : event.FromPeer stream base)
    (permitted : reading.Permits stream event) : (reading.step event).InStream stream base := by
  cases event with
  | arrive offset segment => exact inStream.arrive fromPeer permitted
  | sendData data =>
    exact inStream.of_sameReceiving (tcpSendData_receiving data reading.endpoint)
  | receive maxLen => exact inStream.receive maxLen
  | timers => exact inStream.timers

theorem Reading.InStream.faithful : reading.Faithful stream := by
  refine ⟨(List.prefix_append _ _).trans inStream.received, ?_⟩
  rintro ⟨waiting, empty⟩
  have finished : reading.endpoint.conn.state ≠ .established := by
    rw [waiting]
    decide
  rcases inStream.finished finished with closed | complete
  · rw [waiting] at closed
    cases closed
  · have all := complete.2
    unfold Reading.received at all
    rw [empty, List.append_nil] at all
    exact all

omit inStream

/-- From an established connection with an empty buffer, the application reads
the stream of the peer in every run in which a FIN is handled only when
everything before it has arrived. -/
theorem faithful_of_permitted {stream : List UInt8} {endpoint : Endpoint}
    (established : endpoint.conn.state = .established) (nothing : endpoint.conn.rxBuffer = [])
    {events : List StreamEvent} (fromPeer : ∀ event ∈ events,
      event.FromPeer stream endpoint.conn.recvSeq)
    (permitted : AlongRun Reading.step (Reading.Permits stream) ⟨endpoint, []⟩ events) :
    (runFrom Reading.step ⟨endpoint, []⟩ events).Faithful stream := by
  have start : Reading.InStream stream endpoint.conn.recvSeq ⟨endpoint, []⟩ := by
    have received : Reading.received ⟨endpoint, []⟩ = [] := nothing
    refine ⟨?_, ?_, ?_⟩
    · rw [received]
      exact List.nil_prefix
    · intro _
      rw [received]
      exact (UInt32.add_zero _).symm
    · intro finished
      exact absurd established finished
  have keeps : ∀ (reading : Reading) (event : StreamEvent),
      reading.InStream stream endpoint.conn.recvSeq → event.FromPeer stream endpoint.conn.recvSeq ∧
        reading.Permits stream event → (reading.step event).InStream stream endpoint.conn.recvSeq :=
    fun _ _ inStream allowed => inStream.step allowed.1 allowed.2
  exact ((permitted.and_inputs fromPeer).invariant keeps start).faithful

/-- An established connection that expects the sequence number 8. -/
def readingEndpoint : Endpoint :=
  handleSegment (ackOf 1001 4096) passiveEndpoint

/-- A segment of a stream that starts at the sequence number 8. -/
def streamSegment (offset : Nat) (payload : List UInt8) (flags : UInt8) : Segment :=
  { srcPort := 40000, destPort := 22, seqNum := 8 + UInt32.ofNat offset
    ackNum := 1001, flags := tcpFlagAck ||| flags, window := 4096
    payload := payload }

/-- Two segments and a FIN in order, the first segment twice. -/
theorem faithful_of_order : (runFrom Reading.step ⟨readingEndpoint, []⟩
      [.arrive 0 (streamSegment 0 [1, 2] 0), .receive 1, .arrive 0 (streamSegment 0 [1, 2] 0),
        .arrive 2 (streamSegment 2 [3] tcpFlagFin), .receive 100]).Faithful [1, 2, 3] :=
  faithful_of_permitted (by decide) (by decide) (by decide) (by decide)

/-- The FIN of a stream whose first segment is lost ends the connection with
nothing read. -/
theorem not_faithful_of_overtaking :
    (∀ event ∈ [StreamEvent.arrive 2 (streamSegment 2 [3] tcpFlagFin)],
        event.FromPeer [1, 2, 3] readingEndpoint.conn.recvSeq) ∧
      ¬ (runFrom Reading.step ⟨readingEndpoint, []⟩
        [.arrive 2 (streamSegment 2 [3] tcpFlagFin)]).Faithful [1, 2, 3] := by
  decide +kernel

end KnitOS.Net
