import KnitOS.Net.HttpServer

/-!
# Keep-alive and segmentation

Requests sent back to back reach the handler as they were sent exactly when the
cuts of the stream respect them: what arrives of the next request before a call
returns is lost, and a head has to arrive in few chunks.
-/

namespace KnitOS.Net

open Lib

structure HttpRequest where
  head : List UInt8
  body : List UInt8

namespace HttpRequest

def bytes (request : HttpRequest) : List UInt8 :=
  request.head ++ request.body

def handed (request : HttpRequest) : Handed :=
  (request.head, request.body)

/-- A complete request within the limits of the server: the head ends with its
first empty line and fits the buffer, and whatever stands behind it in the
buffer, it is parsed and its `Content-Length` is the length of the body. -/
structure Complete (request : HttpRequest) : Prop where
  headEnd : httpFindHdrEnd request.head = some request.head.length
  fits : request.head.length < httpReqMax
  parsed : ∀ tail, ∃ info, httpParseRequest (request.head ++ tail) request.head.length = .ok info ∧
      info.contentLength = request.body.length

end HttpRequest

/-- A connection on which nothing arrived yet. -/
def HttpConn.open (buffer : List UInt8) (chunks : List (List UInt8)) : HttpConn :=
  ⟨buffer, [], ⟨[], chunks⟩, []⟩

/-- The chunks are cut between the requests, every request has at most as many
chunks as its call has rounds, and its head is complete in the last of them
only, so that the whole body is there with the head. -/
def CutBetween : Bool → List HttpRequest → List (List UInt8) → Prop
  | _, [], chunks => chunks = []
  | shortIdle, request :: rest, chunks =>
    ∃ own later, chunks = own ++ later ∧ own.flatten = request.bytes ∧
      own.length ≤ headRounds shortIdle ∧
      own.dropLast.flatten.length < request.head.length ∧
      CutBetween true rest later

variable {hdrEnd : Nat} {text : List UInt8}

theorem httpFindHdrEnd_bounds
    (found : httpFindHdrEnd text = some hdrEnd) : 4 ≤ hdrEnd ∧ hdrEnd ≤ text.length := by
  induction text generalizing hdrEnd with
  | nil => cases found
  | cons byte rest ih =>
    unfold httpFindHdrEnd at found
    split at found
    · rename_i here
      cases found
      have length := (List.isPrefixOf_iff_prefix.mp here).length_le
      exact ⟨Nat.le_refl 4, length⟩
    · obtain ⟨later, laterFound, rfl⟩ := Option.map_eq_some_iff.mp found
      have bounds := ih laterFound
      rw [List.length_cons]
      omega

/-- Where the head ends depends on the bytes up to there only. -/
theorem httpFindHdrEnd_congr {other : List UInt8} (found : httpFindHdrEnd text = some hdrEnd)
    (long : hdrEnd ≤ other.length) (same : other.take hdrEnd = text.take hdrEnd) :
    httpFindHdrEnd other = some hdrEnd := by
  induction text generalizing hdrEnd other with
  | nil => cases found
  | cons byte rest ih =>
    have bounds := httpFindHdrEnd_bounds found
    cases other with
    | nil =>
      rw [List.length_nil] at long
      omega
    | cons first others =>
      -- an empty line at the start lies before the end of the head
      have alike : [carriageReturn, lineFeed, carriageReturn, lineFeed].isPrefixOf
          (first :: others) = [carriageReturn, lineFeed, carriageReturn,
            lineFeed].isPrefixOf (byte :: rest) := by
        have four := congrArg (List.take 4) same
        rw [List.take_take, List.take_take, Nat.min_eq_left bounds.1] at four
        rw [Bool.eq_iff_iff, List.isPrefixOf_iff_prefix, List.isPrefixOf_iff_prefix,
          List.prefix_iff_eq_take, List.prefix_iff_eq_take]
        exact Eq.congr_right four
      unfold httpFindHdrEnd at found ⊢
      rw [alike]
      split at found
      · rename_i here
        rw [if_pos here]
        exact found
      · rename_i notHere
        obtain ⟨later, laterFound, rfl⟩ := Option.map_eq_some_iff.mp found
        rw [List.take_succ_cons, List.take_succ_cons] at same
        rw [if_neg notHere, ih laterFound (Nat.le_of_succ_le_succ long) (List.cons.inj same).2]
        rfl

theorem httpFindHdrEnd_append (found : httpFindHdrEnd text = some hdrEnd) (tail : List UInt8) :
    httpFindHdrEnd (text ++ tail) = some hdrEnd := by
  have bounds := httpFindHdrEnd_bounds found
  refine httpFindHdrEnd_congr found ?_ (List.take_append_of_le_length bounds.2)
  rw [List.length_append]
  omega

theorem recv_bytes (maxLen : Nat) (feed : Feed) :
    (feed.recv maxLen).1 ++ (feed.recv maxLen).2.bytes = feed.bytes := by
  obtain ⟨buffered, chunks⟩ := feed
  cases buffered with
  | nil =>
    cases chunks with
    | nil => rfl
    | cons chunk rest =>
      change chunk.take maxLen ++ (chunk.drop maxLen ++ rest.flatten) = chunk ++ rest.flatten
      rw [← List.append_assoc, List.take_append_drop]
  | cons byte more =>
    change (byte :: more).take maxLen ++ ((byte :: more).drop maxLen ++ chunks.flatten) =
      (byte :: more) ++ chunks.flatten
    rw [← List.append_assoc, List.take_append_drop]

theorem add_recv_bytes (maxLen : Nat) (reader : Reader) :
    (reader.add (reader.feed.recv maxLen).1 (reader.feed.recv maxLen).2).bytes = reader.bytes := by
  change (reader.got ++ (reader.feed.recv maxLen).1) ++
    (reader.feed.recv maxLen).2.bytes = reader.got ++ reader.feed.bytes
  rw [List.append_assoc, recv_bytes]

theorem drain_bytes (rounds : Nat) (reader : Reader) :
    (Reader.drain rounds reader).bytes = reader.bytes := by
  induction rounds generalizing reader with
  | zero => rfl
  | succ rounds ih =>
    unfold Reader.drain
    split
    · rfl
    · split
      · rfl
      · dsimp only
        split
        · rfl
        · rw [ih, add_recv_bytes]

variable {reader : Reader}

theorem drain_of_empty (rounds : Nat) (empty : reader.feed.buffered = []) :
    Reader.drain rounds reader = reader := by
  cases rounds with
  | zero => rfl
  | succ rounds =>
    unfold Reader.drain
    rw [if_pos empty, ite_self]

theorem receiveHead_bytes (shortIdle : Bool) (rounds round : Nat) (reader : Reader) :
    (Reader.receiveHead shortIdle rounds round reader).2.bytes = reader.bytes := by
  induction rounds generalizing round reader with
  | zero => rfl
  | succ rounds ih =>
    have received := add_recv_bytes reader.space reader
    unfold Reader.receiveHead
    split
    · rfl
    · dsimp only
      split
      · split
        · rfl
        · rw [ih, received]
      · split
        · rename_i nothing
          rw [ih]
          have same := recv_bytes reader.space reader.feed
          rw [nothing, List.nil_append] at same
          change reader.got ++ (reader.feed.recv reader.space).2.bytes = _
          rw [same]
          rfl
        · rw [ih]
          exact received

theorem recvExact_taken (need : Nat) (feed : Feed) :
    (feed.recvExact need).1 ++ (feed.recvExact need).2.buffered = feed.buffered :=
  List.take_append_drop need feed.buffered

theorem recvExact_bytes (need : Nat) (feed : Feed) :
    (feed.recvExact need).1 ++ (feed.recvExact need).2.bytes = feed.bytes := by
  unfold Feed.bytes
  rw [← List.append_assoc, recvExact_taken]
  rfl

/-- One round takes what fits of the next chunk, and it takes all of it unless
the buffer is full then. -/
theorem receiveHead_round (shortIdle : Bool) (rounds round : Nat) {chunk : List UInt8}
    {rest : List (List UInt8)}
    (unfinished : ¬ reader.finished = true)
    (feed : reader.feed = ⟨[], chunk :: rest⟩) (nonempty : chunk ≠ []) : ∃ next : Reader,
      next.got = reader.got ++ chunk.take reader.space ∧
      next.feed = ⟨chunk.drop reader.space, rest⟩ ∧
      (next.finished = true ∨ next.feed.buffered = []) ∧
      Reader.receiveHead shortIdle (rounds + 1) round reader =
        Reader.receiveHead shortIdle rounds (round + 1) next := by
  have received : reader.feed.recv reader.space =
      (chunk.take reader.space, ⟨chunk.drop reader.space, rest⟩) := by
    rw [feed]
    rfl
  have someSpace : reader.space ≠ 0 := by
    intro full
    exact unfinished (by simp [Reader.finished, full])
  have someBytes : ¬ chunk.take reader.space = [] := by
    intro nothing
    rcases List.take_eq_nil_iff.mp nothing with full | empty
    · exact someSpace full
    · exact nonempty empty
  have ready : ∀ next : Reader, next.got = reader.got ++ chunk.take reader.space →
      next.feed = ⟨chunk.drop reader.space, rest⟩ →
      next.finished = true ∨ next.feed.buffered = [] := by
    intro next got feed
    by_cases fits : chunk.length ≤ reader.space
    · rw [feed]
      exact Or.inr (List.drop_eq_nil_of_le fits)
    · have full : next.space = 0 := by
        unfold Reader.space at fits someSpace ⊢
        rw [got, List.length_append, List.length_take, Reader.space]
        omega
      exact Or.inl (by simp [Reader.finished, full])
  set next := reader.add (chunk.take reader.space) ⟨chunk.drop reader.space, rest⟩ with nextEq
  by_cases idle : (shortIdle && decide (1 < round) && decide (reader.feed.buffered = [])) = true
  · refine ⟨next, rfl, rfl, ready next rfl rfl, ?_⟩
    rw [Reader.receiveHead, if_neg unfinished]
    dsimp only
    rw [received]
    dsimp only
    rw [if_pos idle, if_neg someBytes]
  · refine ⟨next.terminate, rfl, rfl, ready next.terminate rfl rfl, ?_⟩
    rw [Reader.receiveHead, if_neg unfinished]
    dsimp only
    rw [received]
    dsimp only
    rw [if_neg idle, if_neg someBytes]

theorem receiveHead_exhausted (shortIdle : Bool) (rounds round : Nat)
    (feed : reader.feed = ⟨[], []⟩) :
    (Reader.receiveHead shortIdle rounds round reader).2 = reader := by
  induction rounds generalizing round with
  | zero => rfl
  | succ rounds ih =>
    have received : reader.feed.recv reader.space = ([], reader.feed) := by
      rw [feed]
      rfl
    unfold Reader.receiveHead
    split
    · rfl
    · dsimp only
      rw [received]
      dsimp only
      rw [if_pos rfl, if_pos rfl]
      split
      · rfl
      · exact ih (round + 1)

/-- The chunks that the loop for the head uses; without the last of them the
head is not complete. -/
theorem receiveHead_uses (shortIdle : Bool) (rounds round : Nat) (reader : Reader)
    (start : reader.finished = true ∨ reader.feed.buffered = [])
    (nonempty : ∀ chunk ∈ reader.feed.chunks, chunk ≠ []) :
    ∃ used rest, reader.feed.chunks = used ++ rest ∧ used.length ≤ rounds ∧
      (Reader.receiveHead shortIdle rounds round reader).2.feed.chunks = rest ∧
      (Reader.receiveHead shortIdle rounds round reader).2.got ++
          (Reader.receiveHead shortIdle rounds round reader).2.feed.buffered =
        reader.got ++ reader.feed.buffered ++ used.flatten ∧
      (used = [] ∨
        httpFindHdrEnd (reader.got ++ reader.feed.buffered ++ used.dropLast.flatten) = none) := by
  induction rounds generalizing round reader with
  | zero => exact ⟨[], _, rfl, Nat.le_refl 0, rfl, (List.append_nil _).symm, Or.inl rfl⟩
  | succ rounds ih =>
    by_cases finished : reader.finished = true
    · unfold Reader.receiveHead
      rw [if_pos finished]
      exact ⟨[], _, rfl, Nat.zero_le _, rfl, (List.append_nil _).symm, Or.inl rfl⟩
    · have empty := start.resolve_left finished
      cases chunks : reader.feed.chunks with
      | nil =>
        have feed : reader.feed = ⟨[], []⟩ := by
          rw [← empty, ← chunks]
        rw [receiveHead_exhausted shortIdle (rounds + 1) round feed]
        exact ⟨[], [], rfl, Nat.zero_le _, chunks, (List.append_nil _).symm, Or.inl rfl⟩
      | cons chunk rest =>
        have feed : reader.feed = ⟨[], chunk :: rest⟩ := by
          rw [← empty, ← chunks]
        rw [chunks] at nonempty
        obtain ⟨next, nextGot, nextFeed, ready, stepped⟩ :=
          receiveHead_round shortIdle rounds round finished feed (nonempty chunk List.mem_cons_self)
        have nextBytes : next.got ++ next.feed.buffered = reader.got ++ chunk := by
          rw [nextGot, nextFeed, List.append_assoc, List.take_append_drop]
        obtain ⟨used, left, split, few, leftEq, taken, last⟩ := ih (round + 1) next ready (by
            rw [nextFeed]
            exact (List.forall_mem_cons.mp nonempty).2)
        rw [nextFeed] at split
        refine ⟨chunk :: used, left, ?_, ?_, ?_, ?_, Or.inr ?_⟩
        · rw [List.cons_append, ← split]
        · rw [List.length_cons]
          omega
        · rw [stepped]
          exact leftEq
        · rw [stepped, taken, nextBytes, empty, List.append_nil, List.flatten_cons,
            List.append_assoc]
        · rw [empty, List.append_nil]
          cases used with
          | nil =>
            -- the only chunk: the head was not complete when the round began
            rw [List.dropLast_singleton, List.flatten_nil, List.append_nil]
            have missing : ¬ (httpFindHdrEnd reader.got).isSome = true := by
              intro found
              exact finished (by rw [Reader.finished, found, Bool.or_true])
            exact Option.not_isSome_iff_eq_none.mp missing
          | cons second others =>
            have missing := last.resolve_left (List.cons_ne_nil second others)
            rw [nextBytes] at missing
            rw [List.dropLast_cons_cons, List.flatten_cons, ← List.append_assoc]
            exact missing

variable {own : List (List UInt8)}

theorem httpFindHdrEnd_of_arrived {got tail : List UInt8}
    (found : httpFindHdrEnd (got ++ tail) = some hdrEnd)
    (arrived : hdrEnd ≤ got.length) : httpFindHdrEnd got = some hdrEnd :=
  httpFindHdrEnd_congr found arrived (List.take_append_of_le_length arrived).symm

theorem httpFindHdrEnd_of_finished {tail : List UInt8}
    (found : httpFindHdrEnd (reader.got ++ tail) = some hdrEnd)
    (fits : hdrEnd < httpReqMax) (finished : reader.finished = true) :
    httpFindHdrEnd reader.got = some hdrEnd := by
  unfold Reader.finished at finished
  rcases Bool.or_eq_true_iff.mp finished with full | headFound
  · refine httpFindHdrEnd_of_arrived found ?_
    have full := of_decide_eq_true full
    unfold Reader.space at full
    omega
  · obtain ⟨other, otherFound⟩ := Option.isSome_iff_exists.mp headFound
    have same := httpFindHdrEnd_append otherFound tail
    rw [found] at same
    rw [otherFound, same]

theorem receiveHead_found (shortIdle : Bool) (rounds round : Nat)
    (reader : Reader) (own later : List (List UInt8)) (hdrEnd : Nat)
    (chunks : reader.feed.chunks = own ++ later) (nonempty : ∀ chunk ∈ own, chunk ≠ [])
    (found : httpFindHdrEnd (reader.got ++ (reader.feed.buffered ++ own.flatten)) = some hdrEnd)
    (fits : hdrEnd < httpReqMax) (start : reader.finished = true ∨ reader.feed.buffered = [] ∧
      hdrEnd ≤ (reader.got ++ (own.take rounds).flatten).length) :
    ∃ left, Reader.receiveHead shortIdle rounds round reader = (true, left) ∧
      httpFindHdrEnd left.got = some hdrEnd ∧
      ∃ used rest, own = used ++ rest ∧ left.feed.chunks = rest ++ later ∧
        left.got ++ left.feed.buffered = reader.got ++ reader.feed.buffered ++ used.flatten := by
  induction rounds generalizing round reader own with
  | zero =>
    refine ⟨reader, rfl, ?_, [], own, rfl, chunks, (List.append_nil _).symm⟩
    rcases start with finished | arrived
    · exact httpFindHdrEnd_of_finished found fits finished
    · refine httpFindHdrEnd_of_arrived found ?_
      rw [List.take_zero, List.flatten_nil, List.append_nil] at arrived
      exact arrived.2
  | succ rounds ih =>
    by_cases finished : reader.finished = true
    · rw [Reader.receiveHead, if_pos finished]
      exact ⟨reader, rfl, httpFindHdrEnd_of_finished found fits finished, [], own,
        rfl, chunks, (List.append_nil _).symm⟩
    · obtain ⟨empty, arrives⟩ := start.resolve_left finished
      cases own with
      | nil =>
        rw [List.take_nil, List.flatten_nil, List.append_nil] at arrives
        have headFound := httpFindHdrEnd_of_arrived found arrives
        exact absurd (by simp [Reader.finished, headFound]) finished
      | cons chunk rest =>
        have feed : reader.feed = ⟨[], chunk :: (rest ++ later)⟩ := by
          rw [← empty, ← List.cons_append, ← chunks]
        obtain ⟨next, nextGot, nextFeed, ready, stepped⟩ :=
          receiveHead_round shortIdle rounds round finished feed (nonempty chunk List.mem_cons_self)
        have nextBytes : next.got ++ next.feed.buffered = reader.got ++ chunk := by
          rw [nextGot, nextFeed, List.append_assoc, List.take_append_drop]
        have nextFound : httpFindHdrEnd (next.got ++
            (next.feed.buffered ++ rest.flatten)) = some hdrEnd := by
          rw [← List.append_assoc, nextBytes, List.append_assoc, ← List.flatten_cons]
          rw [empty, List.nil_append] at found
          exact found
        have nextStart : next.finished = true ∨ next.feed.buffered = [] ∧
              hdrEnd ≤ (next.got ++ (rest.take rounds).flatten).length := by
          rcases ready with full | nextEmpty
          · exact Or.inl full
          · refine Or.inr ⟨nextEmpty, ?_⟩
            rw [nextEmpty, List.append_nil] at nextBytes
            rw [List.take_succ_cons, List.flatten_cons, ← List.append_assoc] at arrives
            rw [nextBytes]
            exact arrives
        obtain ⟨last, succeeds, headFound, used, left, split, leftEq, taken⟩ :=
          ih (round + 1) next rest (by rw [nextFeed]) (List.forall_mem_cons.mp nonempty).2
            nextFound nextStart
        rw [stepped]
        refine ⟨last, succeeds, headFound, chunk :: used, left, ?_, leftEq, ?_⟩
        · rw [List.cons_append, ← split]
        · rw [taken, nextBytes, empty, List.append_nil, List.flatten_cons, List.append_assoc]

theorem receiveBody_size (reader : Reader) (hdrEnd : Nat)
    (info : HttpRequestInfo) (conn : HttpConn) :
    (httpReceiveBody reader hdrEnd info conn).1.1.length +
        (httpReceiveBody reader hdrEnd info conn).1.2.length +
        (httpReceiveBody reader hdrEnd info conn).2.feed.bytes.length ≤ reader.bytes.length := by
  unfold httpReceiveBody httpSavePending
  dsimp only
  set bodyInBuf := (reader.got.drop hdrEnd).take info.contentLength with bodyInBufEq
  set need := info.contentLength - bodyInBuf.length with needEq
  set rest :=
    if need = 0 then
      ([], reader.feed)
    else
      reader.feed.recvExact need with restEq
  have restBytes : rest.1 ++ rest.2.bytes = reader.feed.bytes := by
    rw [restEq]
    split
    · rfl
    · exact recvExact_bytes need reader.feed
  have restLength := congrArg List.length restBytes
  rw [List.length_append] at restLength
  have bodyLength : (if rest.1.length = need then bodyInBuf ++ rest.1
      else bodyInBuf).length ≤ bodyInBuf.length + rest.1.length := by
    split
    · exact Nat.le_of_eq List.length_append
    · exact Nat.le_add_right _ _
  have inBuffer : bodyInBuf.length ≤ (reader.got.drop hdrEnd).length := by
    rw [bodyInBufEq]
    exact List.length_take_le' _ _
  unfold Feed.bytes at restLength ⊢
  unfold Reader.bytes Feed.bytes
  simp only [List.length_append, List.length_take, List.length_drop] at *
  omega

variable {conn left : HttpConn}

theorem finish_size {request : Handed} (finished : httpFinish reader conn = (some request, left)) :
    request.1.length + request.2.length + left.feed.bytes.length ≤ reader.bytes.length := by
  have sizes : reader.bytes.length =
    reader.got.length + reader.feed.bytes.length := List.length_append
  unfold httpFinish at finished
  dsimp only at finished
  split at finished
  · split at finished
    · cases finished
    · cases finished
      exact Nat.le_of_eq sizes.symm
  · rename_i hdrEnd _
    split at finished
    · cases finished
      change (reader.got.take hdrEnd).length + 0 + reader.feed.bytes.length ≤ _
      rw [sizes, List.length_take]
      omega
    · cases finished
      exact receiveBody_size reader hdrEnd _ _

theorem httpReceive_bytes (shortIdle : Bool) (conn : HttpConn) :
    (httpReceive shortIdle conn).2.bytes = conn.feed.bytes := by
  unfold httpReceive
  dsimp only
  rw [receiveHead_bytes, drain_bytes]
  rfl

variable {shortIdle : Bool}

theorem recvRequest_size
    {request : Handed} (called : httpRecvRequest shortIdle conn = (some request, left)) :
    request.1.length + request.2.length + left.feed.bytes.length ≤ conn.feed.bytes.length := by
  unfold httpRecvRequest at called
  dsimp only at called
  split at called
  · cases called
  · rw [← httpReceive_bytes shortIdle conn]
    exact finish_size called

/-- The bytes of the requests that were handed on. -/
def handedSize (requests : List Handed) : Nat :=
  (requests.map fun request => request.1.length + request.2.length).sum

theorem serve_size (calls : Nat) (shortIdle : Bool) (conn : HttpConn) :
    handedSize (httpServe calls shortIdle conn) ≤ conn.feed.bytes.length := by
  induction calls generalizing shortIdle conn with
  | zero => exact Nat.zero_le _
  | succ calls ih =>
    unfold httpServe
    split
    · exact Nat.zero_le _
    · rename_i request left called
      have first := recvRequest_size called
      have rest := ih true left
      unfold handedSize at rest ⊢
      rw [List.map_cons, List.sum_cons]
      omega

theorem httpReceive_of_empty (shortIdle : Bool) {conn : HttpConn}
    (empty : conn.feed.buffered = []) : httpReceive shortIdle conn =
      Reader.receiveHead shortIdle (headRounds shortIdle) 0 ⟨[], conn.buffer, conn.feed⟩ := by
  unfold httpReceive
  dsimp only
  rw [drain_of_empty 16 (by exact empty)]
  rfl

variable {request : HttpRequest}

theorem eq_nil_of_flatten {chunks : List (List UInt8)} (nonempty : ∀ chunk ∈ chunks, chunk ≠ [])
    (empty : chunks.flatten = []) : chunks = [] := by
  rw [List.eq_nil_iff_forall_not_mem]
  intro chunk member
  exact nonempty chunk member (List.flatten_eq_nil_iff.mp empty chunk member)

theorem receiveBody_own {info : HttpRequestInfo} (conn : HttpConn) {inbuf : List UInt8}
    (got : reader.got = request.head ++ inbuf)
    (body : inbuf ++ reader.feed.buffered = request.body)
    (length : info.contentLength = request.body.length) :
    (httpReceiveBody reader request.head.length info conn).1 = request.handed ∧
      (httpReceiveBody reader request.head.length info conn).2.feed =
        ⟨[], reader.feed.chunks⟩ := by
  have lengths := congrArg List.length body
  rw [List.length_append] at lengths
  have inBuf : (reader.got.drop request.head.length).take info.contentLength = inbuf := by
    rw [got, List.drop_left, List.take_of_length_le (by omega)]
  have extra : (reader.got.drop request.head.length).drop inbuf.length = [] := by
    rw [got, List.drop_left, List.drop_length]
  have rest : (if info.contentLength - inbuf.length = 0 then
        ([], reader.feed)
      else
        reader.feed.recvExact (info.contentLength - inbuf.length)) =
      (reader.feed.buffered, ⟨[], reader.feed.chunks⟩) := by
    split
    · have nothing : reader.feed.buffered = [] := List.length_eq_zero_iff.mp (by omega)
      rw [nothing, ← nothing]
    · unfold Feed.recvExact
      rw [List.take_of_length_le (by omega), List.drop_eq_nil_of_le (by omega)]
  unfold httpReceiveBody httpSavePending
  dsimp only
  rw [inBuf, rest, extra]
  dsimp only
  refine ⟨?_, ?_⟩
  · rw [if_pos (by omega), body, got, List.take_left]
    rfl
  · rw [List.drop_nil]

/-- Chunks that hold the head are all of the request's when the head is complete
in the last one only. -/
theorem eq_nil_of_dropLast {used rest : List (List UInt8)} {size : Nat}
    (last : (used ++ rest).dropLast.flatten.length < size)
    (arrived : size ≤ used.flatten.length) : rest = [] := by
  by_contra more
  rw [List.dropLast_append_of_ne_nil more, List.flatten_append, List.length_append] at last
  omega

theorem recvRequest_own (complete : request.Complete)
    {later : List (List UInt8)} (feed : conn.feed = ⟨[], own ++ later⟩)
    (nonempty : ∀ chunk ∈ own, chunk ≠ []) (all : own.flatten = request.bytes)
    (few : own.length ≤ headRounds shortIdle)
    (last : own.dropLast.flatten.length < request.head.length) :
    ∃ left, httpRecvRequest shortIdle conn = (some request.handed, left) ∧
      left.feed = ⟨[], later⟩ := by
  have received := @httpReceive_of_empty shortIdle conn (by rw [feed])
  have soon : request.head.length ≤ (own.take (headRounds shortIdle)).flatten.length := by
    rw [List.take_of_length_le few, all]
    exact (List.prefix_append request.head request.body).length_le
  obtain ⟨reader, succeeds, headFound, used, rest, split, chunks, taken⟩ :=
    receiveHead_found shortIdle (headRounds shortIdle) 0
      ⟨[], conn.buffer, conn.feed⟩ own later request.head.length (by rw [feed]) nonempty (by
        rw [feed]
        change httpFindHdrEnd own.flatten = _
        rw [all]
        exact httpFindHdrEnd_append complete.headEnd request.body)
      complete.fits (Or.inr ⟨by rw [feed], soon⟩)
  unfold httpRecvRequest
  rw [received, succeeds, if_neg (by simp)]
  rw [feed] at taken
  change reader.got ++ reader.feed.buffered = used.flatten at taken
  have arrived : request.head.length ≤ used.flatten.length := by
    have bounds := (httpFindHdrEnd_bounds headFound).2
    rw [← taken, List.length_append]
    omega
  rw [split] at last
  have noRest := eq_nil_of_dropLast last arrived
  rw [noRest, List.append_nil] at split
  rw [noRest, List.nil_append] at chunks
  have whole : reader.got ++ reader.feed.buffered = request.head ++ request.body := by
    rw [taken, ← split, all]
    rfl
  obtain ⟨inbuf, got⟩ : request.head <+: reader.got :=
    List.prefix_of_prefix_length_le ⟨request.body, whole.symm⟩
      (List.prefix_append _ _) (httpFindHdrEnd_bounds headFound).2
  have body : inbuf ++ reader.feed.buffered = request.body := by
    rw [← got, List.append_assoc] at whole
    exact List.append_cancel_left whole
  obtain ⟨info, parsed, length⟩ := complete.parsed (inbuf ++ reader.stale)
  rw [← List.append_assoc, got] at parsed
  unfold httpFinish
  dsimp only
  rw [headFound]
  dsimp only
  rw [parsed]
  dsimp only
  obtain ⟨handed, leftFeed⟩ := receiveBody_own
    { conn with
      buffer := reader.got ++ reader.stale
      pending := []
      feed := reader.feed } got.symm body length
  rw [chunks] at leftFeed
  exact ⟨_, Prod.ext (congrArg some handed) rfl, leftFeed⟩

theorem receiveBody_exact {info : HttpRequestInfo} (conn : HttpConn) {inbuf : List UInt8}
    {more : Nat} (got : reader.got = request.head ++ inbuf)
    (length : info.contentLength = request.body.length)
    (handed : (httpReceiveBody reader request.head.length info conn).1 = request.handed)
    (all : reader.bytes.length = request.bytes.length + more)
    (lossless : (httpReceiveBody reader request.head.length info conn).2.feed.bytes.length = more) :
    (reader.got ++ reader.feed.buffered).length = request.bytes.length ∧
      (httpReceiveBody reader request.head.length info conn).2.feed =
        ⟨[], reader.feed.chunks⟩ := by
  unfold httpReceiveBody httpSavePending at handed lossless ⊢
  dsimp only at handed lossless ⊢
  have inbufEq : reader.got.drop request.head.length = inbuf := by
    rw [got, List.drop_left]
  rw [inbufEq] at handed lossless ⊢
  set bodyInBuf := inbuf.take info.contentLength with bodyInBufEq
  set need := info.contentLength - bodyInBuf.length with needEq
  set later :=
    if need = 0 then
      ([], reader.feed)
    else
      reader.feed.recvExact need with laterEq
  obtain ⟨laterChunks, taken⟩ : later.2.chunks = reader.feed.chunks ∧
      later.1 ++ later.2.buffered = reader.feed.buffered := by
    rw [laterEq]
    split
    · exact ⟨rfl, rfl⟩
    · exact ⟨rfl, recvExact_taken need reader.feed⟩
  have bodyEq : (if later.1.length = need then bodyInBuf ++ later.1
    else bodyInBuf) = request.body := congrArg Prod.snd handed
  have bodyLength : request.body.length ≤ bodyInBuf.length + later.1.length := by
    rw [← bodyEq]
    split
    · exact Nat.le_of_eq List.length_append
    · exact Nat.le_add_right _ _
  have inBuffer : bodyInBuf.length ≤ inbuf.length := List.length_take_le' _ _
  have takenLength := congrArg List.length taken
  have gotLength := congrArg List.length got
  unfold Reader.bytes Feed.bytes at all
  unfold Feed.bytes at lossless
  unfold HttpRequest.bytes at all ⊢
  rw [laterChunks] at lossless ⊢
  rw [List.length_append, List.length_append, List.length_append] at all
  rw [List.length_append] at takenLength gotLength lossless
  set extra :=
    if info.contentLength = 0 then
      []
    else
      (inbuf.drop bodyInBuf.length).take httpPendingMax with extraEq
  have dropLength : (later.2.buffered.drop (httpPendingMax - extra.length)).length =
    later.2.buffered.length - (httpPendingMax - extra.length) := List.length_drop
  dsimp only at lossless
  rw [dropLength] at lossless
  -- every byte is accounted for, so nothing is left for the pending buffer
  have noExtra : extra.length = 0 := by
    rw [extraEq]
    split
    · rfl
    · rw [List.length_take, List.length_drop]
      omega
  have room : httpPendingMax = 512 := rfl
  have noBuffered : later.2.buffered = [] := List.length_eq_zero_iff.mp (by omega)
  refine ⟨?_, ?_⟩
  · rw [List.length_append, List.length_append]
    omega
  · rw [noBuffered, List.drop_nil]

/-- The chunks of a request before its last do not hold the head if the call
did not find it there. -/
theorem HttpRequest.Complete.dropLast_lt_head (complete : request.Complete)
    {own : List (List UInt8)} (all : own.flatten = request.bytes)
    (last : own = [] ∨ httpFindHdrEnd own.dropLast.flatten = none) :
    own.dropLast.flatten.length < request.head.length := by
  have bounds := httpFindHdrEnd_bounds complete.headEnd
  rcases last with none | missing
  · rw [none, List.dropLast_nil, List.flatten_nil, List.length_nil]
    omega
  · by_contra long
    -- otherwise the head would have been found a chunk earlier
    obtain ⟨lastChunk, cut⟩ := List.dropLast_prefix own
    have found := httpFindHdrEnd_append complete.headEnd request.body
    change httpFindHdrEnd request.bytes = _ at found
    rw [← all, ← cut, List.flatten_append] at found
    rw [httpFindHdrEnd_of_arrived found (Nat.le_of_not_lt long)] at missing
    cases missing

/-- A call that hands on the request and loses nothing took whole chunks in its
rounds, and the last of them completed the head. -/
theorem recvRequest_exact (complete : request.Complete)
    {chunks : List (List UInt8)} {more : List UInt8} (feed : conn.feed = ⟨[], chunks⟩)
    (nonempty : ∀ chunk ∈ chunks, chunk ≠ []) (stream : chunks.flatten = request.bytes ++ more)
    (called : httpRecvRequest shortIdle conn = (some request.handed, left))
    (lossless : left.feed.bytes.length = more.length) :
    ∃ own later, chunks = own ++ later ∧ own.flatten = request.bytes ∧
      own.length ≤ headRounds shortIdle ∧
      own.dropLast.flatten.length < request.head.length ∧
      left.feed = ⟨[], later⟩ := by
  have received := @httpReceive_of_empty shortIdle conn (by rw [feed])
  obtain ⟨used, rest, split, few, restEq, taken, last⟩ :=
    receiveHead_uses shortIdle (headRounds shortIdle) 0
      ⟨[], conn.buffer, conn.feed⟩ (Or.inr (by rw [feed])) (by rw [feed]; exact nonempty)
  rw [← received] at restEq taken
  rw [feed] at split taken last
  dsimp only at split
  change used = [] ∨ httpFindHdrEnd used.dropLast.flatten = none at last
  unfold httpRecvRequest at called
  dsimp only at called
  split at called
  · cases called
  · set reader := (httpReceive shortIdle conn).2 with readerEq
    change reader.got ++ reader.feed.buffered = used.flatten at taken
    have streamFound : httpFindHdrEnd chunks.flatten = some request.head.length := by
      rw [stream]
      unfold HttpRequest.bytes
      rw [List.append_assoc]
      exact httpFindHdrEnd_append complete.headEnd _
    have whole : reader.got ++ (reader.feed.buffered ++ rest.flatten) = chunks.flatten := by
      rw [← List.append_assoc, taken, ← List.flatten_append, ← split]
    unfold httpFinish at called
    dsimp only at called
    split at called
    · rename_i missing
      split at called
      · cases called
      · have got : reader.got = request.head :=
          congrArg Prod.fst (Option.some.inj (congrArg Prod.fst called))
        rw [got, complete.headEnd] at missing
        cases missing
    · rename_i hdrEnd headFound
      have sameEnd := httpFindHdrEnd_append headFound (reader.feed.buffered ++ rest.flatten)
      rw [whole, streamFound] at sameEnd
      cases sameEnd
      obtain ⟨inbuf, got⟩ : request.head <+: reader.got := by
        refine List.prefix_of_prefix_length_le ⟨request.body ++ more, ?_⟩
          ⟨_, whole⟩ (httpFindHdrEnd_bounds headFound).2
        rw [stream, ← List.append_assoc]
        rfl
      obtain ⟨info, parsed, length⟩ := complete.parsed (inbuf ++ reader.stale)
      rw [← List.append_assoc, got] at parsed
      rw [parsed] at called
      dsimp only at called
      have handed := Option.some.inj (congrArg Prod.fst called)
      have leftEq := congrArg Prod.snd called
      dsimp only at handed leftEq
      rw [← leftEq] at lossless ⊢
      have all : reader.bytes.length = request.bytes.length + more.length := by
        unfold Reader.bytes Feed.bytes
        rw [restEq, whole, stream, List.length_append]
      obtain ⟨exactly, leftFeed⟩ :=
        receiveBody_exact _ got.symm length handed all lossless
      rw [restEq] at leftFeed
      rw [taken] at exactly
      have own : used.flatten = request.bytes := by
        rw [split, List.flatten_append] at stream
        exact (List.append_inj stream exactly).1
      exact ⟨used, rest, split, own, few, complete.dropLast_lt_head own last, leftFeed⟩

/-- The bytes of the requests, back to back. -/
def requestStream (requests : List HttpRequest) : List UInt8 :=
  (requests.map HttpRequest.bytes).flatten

theorem handedSize_requests (requests : List HttpRequest) :
    handedSize (requests.map HttpRequest.handed) = (requestStream requests).length := by
  induction requests with
  | nil => rfl
  | cons request rest ih =>
    unfold handedSize requestStream at *
    rw [List.map_cons, List.map_cons, List.sum_cons, ih,
      List.map_cons, List.flatten_cons, List.length_append]
    exact congrArg (· + _) List.length_append.symm

theorem serve_eq_iff {requests : List HttpRequest} :
    ∀ {shortIdle : Bool} {conn : HttpConn} {chunks : List (List UInt8)},
      (∀ request ∈ requests, request.Complete) → conn.feed = ⟨[], chunks⟩ →
      (∀ chunk ∈ chunks, chunk ≠ []) → chunks.flatten = requestStream requests →
      (httpServe requests.length shortIdle conn = requests.map HttpRequest.handed ↔
        CutBetween shortIdle requests chunks) := by
  induction requests with
  | nil =>
    intro shortIdle conn chunks _ _ nonempty stream
    exact ⟨fun _ => eq_nil_of_flatten nonempty stream, fun _ => rfl⟩
  | cons request rest ih =>
    intro shortIdle conn chunks complete feed nonempty stream
    obtain ⟨firstComplete, restComplete⟩ := List.forall_mem_cons.mp complete
    have restStream : chunks.flatten = request.bytes ++ requestStream rest := stream
    constructor
    · intro served
      rw [List.length_cons, httpServe, List.map_cons] at served
      split at served
      · cases served
      · rename_i first left called
        obtain ⟨firstEq, restServed⟩ := List.cons.inj served
        rw [firstEq] at called
        -- the later calls can only hand on what this one left
        have taken := recvRequest_size called
        have remaining := serve_size rest.length true left
        rw [restServed, handedSize_requests] at remaining
        have total : conn.feed.bytes.length = request.bytes.length +
            (requestStream rest).length := by
          rw [feed, ← List.length_append, ← restStream]
          rfl
        have sizes : request.bytes.length = request.handed.1.length + request.handed.2.length :=
          List.length_append
        obtain ⟨own, later, split, all, few, last, leftFeed⟩ :=
          recvRequest_exact firstComplete feed nonempty restStream called (by omega)
        rw [split, List.flatten_append, all] at restStream
        rw [split, List.forall_mem_append] at nonempty
        refine ⟨own, later, split, all, few, last, ?_⟩
        exact (ih restComplete leftFeed nonempty.2
          (List.append_cancel_left restStream)).mp restServed
    · rintro ⟨own, later, split, all, few, last, cut⟩
      rw [split, List.forall_mem_append] at nonempty
      obtain ⟨left, called, leftFeed⟩ := recvRequest_own firstComplete (by rw [feed, split])
        nonempty.1 all few last
      rw [split, List.flatten_append, all] at restStream
      rw [List.length_cons, httpServe, called, List.map_cons]
      refine congrArg (request.handed :: ·) ?_
      exact (ih restComplete leftFeed nonempty.2 (List.append_cancel_left restStream)).mpr cut

theorem one_le_headRounds (shortIdle : Bool) : 1 ≤ headRounds shortIdle := by
  cases shortIdle
  · decide
  · decide

theorem cutBetween_alone (shortIdle : Bool) {requests : List HttpRequest}
    (complete : ∀ request ∈ requests, request.Complete) :
    CutBetween shortIdle requests (requests.map HttpRequest.bytes) := by
  induction requests generalizing shortIdle with
  | nil => rfl
  | cons request rest ih =>
    obtain ⟨firstComplete, restComplete⟩ := List.forall_mem_cons.mp complete
    have bounds := httpFindHdrEnd_bounds firstComplete.headEnd
    refine ⟨[request.bytes], rest.map HttpRequest.bytes, rfl, List.append_nil _,
      one_le_headRounds shortIdle, ?_, ih true restComplete⟩
    rw [List.dropLast_singleton, List.flatten_nil, List.length_nil]
    omega

/-- A request without headers. -/
def getRoot : HttpRequest :=
  ⟨ascii "GET / HTTP/1.1\r\n\r\n", []⟩

theorem getRoot_complete : getRoot.Complete := by
  refine ⟨by decide, by decide, ?_⟩
  intro tail
  refine ⟨⟨.get, ascii "/", true, true, false, false, false, 0⟩, ?_, rfl⟩
  have head : (getRoot.head ++ tail).take getRoot.head.length = getRoot.head := List.take_left
  unfold httpParseRequest
  rw [head]
  rfl

theorem getRoot_twice_complete : ∀ request ∈ [getRoot, getRoot], request.Complete :=
  List.forall_mem_cons.mpr ⟨getRoot_complete, List.forall_mem_singleton.mpr getRoot_complete⟩

end KnitOS.Net
