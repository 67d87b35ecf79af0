import KnitOS.Heap.Tiling

/-!
# Runs of heap requests

The blocks tile the arena in every state, no two free ones are neighbours, and
every live allocation is the payload of a used block that is as large as was
asked for.
-/

namespace KnitOS.Heap

open Lib

variable {arena : Arena}

variable (arena) in
/-- The live allocations are payloads of different used blocks, which are large
enough. -/
structure Owned (blocks : List Block) (live : List Allocation) : Prop where
  distinct : (live.map Allocation.ptr).Nodup
  backed : ∀ allocation ∈ live, ∃ size, (allocation.ptr, size) ∈ used arena.base blocks ∧
      allocation.requested ≤ size

variable {size ptr requested : Nat} {live : List Allocation} {blocks blocks' : List Block}
  {heap : HeapState}

theorem Owned.granted {reached : HeapState} (owned : Owned arena blocks live)
    (grants : @Granted arena heap reached blocks blocks' size ptr) (enough : requested ≤ size) :
    Owned arena blocks' (granted ptr requested live) := by
  rw [Heap.granted, if_neg grants.pointer]
  refine ⟨?_, ?_⟩
  · rw [List.map_cons, List.nodup_cons]
    refine ⟨fun member => ?_, owned.distinct⟩
    obtain ⟨allocation, allocationMember, samePtr⟩ := List.mem_map.mp member
    obtain ⟨size, inUse, _⟩ := owned.backed allocation allocationMember
    exact (grants.mem_of_mem inUse).2 samePtr
  · intro allocation member
    rcases List.mem_cons.mp member with isNew | isOld
    · obtain ⟨got, large, inUse⟩ := grants.mem_used
      rw [isNew]
      exact ⟨got, inUse, Nat.le_trans enough large⟩
    · obtain ⟨size, inUse, covers⟩ := owned.backed allocation isOld
      exact ⟨size, (grants.mem_of_mem inUse).1, covers⟩

theorem Owned.released {first second : List (Nat × Nat)} (owned : Owned arena blocks live)
    (before : used arena.base blocks = first ++ (ptr, size) :: second)
    (after : used arena.base blocks' = first ++ second) :
    Owned arena blocks' (released ptr live) := by
  refine ⟨owned.distinct.sublist (List.Sublist.map _ List.filter_sublist), ?_⟩
  intro allocation member
  obtain ⟨inLive, different⟩ := List.mem_filter.mp member
  obtain ⟨size, inUse, covers⟩ := owned.backed allocation inLive
  refine ⟨size, ?_, covers⟩
  rw [before] at inUse
  rw [after]
  rcases List.mem_append.mp inUse with isFirst | isSecond
  · exact List.mem_append_left _ isFirst
  · rcases List.mem_cons.mp isSecond with isFreed | isLater
    · rw [(Prod.mk.inj isFreed).1] at different
      simp at different
    · exact List.mem_append_right _ isLater

variable (arena) in
/-- What holds of a client in every state. -/
structure Client.Holds (client : Client) : Prop where
  idle : client.heap.ready = false → client.live = []
  tiled : ∃ blocks, Tiled arena (heapInit arena client.heap) blocks ∧ Owned arena blocks client.live

variable {client : Client}

theorem Client.Holds.of_tiled (tiled : Tiled arena client.heap blocks)
    (owned : Owned arena blocks client.live) : client.Holds arena := by
  refine ⟨fun idle => ?_, blocks, ?_, owned⟩
  · rw [tiled.ready] at idle
    cases idle
  · rw [heapInit_of_ready tiled.ready]
    exact tiled

theorem malloc_heapInit (positive : size ≠ 0) (heap : HeapState) :
    malloc arena size heap = malloc arena size (heapInit arena heap) := by
  unfold malloc
  rw [if_neg positive, if_neg positive, heapInit_of_ready (heapInit_ready heap)]

theorem Client.Holds.malloc (holds : client.Holds arena) (enough : requested ≤ size) :
    Client.Holds arena
    ⟨(malloc arena size client.heap).2,
      granted (malloc arena size client.heap).1 requested client.live⟩ := by
  by_cases positive : size = 0
  · have nothing : Heap.malloc arena size client.heap = (0, client.heap) := if_pos positive
    rw [nothing]
    exact holds
  · obtain ⟨blocks, tiled, owned⟩ := holds.tiled
    rw [malloc_heapInit positive]
    rcases tiled.allocated size with
      failed | ⟨ptr, reached, blocks', found, grants⟩
    · rw [failed]
      exact Client.Holds.of_tiled tiled owned
    · rw [found]
      exact Client.Holds.of_tiled grants.tiled (owned.granted grants enough)

theorem Client.Holds.calloc (holds : client.Holds arena)
    {nmemb : Nat} (noWrap : nmemb * size < 2 ^ 32) : Client.Holds arena
      ⟨(calloc arena nmemb size client.heap).2,
        granted (calloc arena nmemb size client.heap).1 (nmemb * size) client.live⟩ := by
  have total : nmemb * size % 2 ^ 32 = nmemb * size := Nat.mod_eq_of_lt noWrap
  unfold Heap.calloc
  rw [total]
  dsimp only
  split
  · rename_i failed
    have kept := holds.malloc (Nat.le_refl (nmemb * size))
    rw [failed] at kept ⊢
    exact kept
  · rename_i found
    have positive : nmemb * size ≠ 0 := by
      intro none
      rw [none] at found
      exact found rfl
    obtain ⟨blocks, tiled, owned⟩ := holds.tiled
    rw [malloc_heapInit positive] at found ⊢
    rcases tiled.allocated (nmemb * size) with
      failed | ⟨ptr, reached, blocks', granted, grants⟩
    · rw [failed] at found
      exact absurd rfl found
    · rw [granted]
      obtain ⟨got, large, inUse⟩ := grants.mem_used
      have cleared : ∀ first last, last ≤ ptr ∨ ptr + got ≤ first →
          Memory.AgreeOn (clearLoop ptr (nmemb * size) 0 reached.memory)
            reached.memory first last := fun first last apart =>
        clearLoop_agreeOn ptr _ _ _ (by omega)
      exact Client.Holds.of_tiled (grants.tiled.written inUse cleared)
        (owned.granted grants (Nat.le_refl _))

variable {allocation : Allocation}

theorem Client.Holds.block_of_live
    (holds : client.Holds arena) (member : allocation ∈ client.live) :
    ∃ blocks size, Tiled arena client.heap blocks ∧ Owned arena blocks client.live ∧
      (allocation.ptr, size) ∈ used arena.base blocks ∧ allocation.requested ≤ size := by
  have ready : client.heap.ready = true := by
    cases isReady : client.heap.ready with
    | true => rfl
    | false =>
      rw [holds.idle isReady] at member
      cases member
  obtain ⟨blocks, tiled, owned⟩ := holds.tiled
  rw [heapInit_of_ready ready] at tiled
  obtain ⟨size, inUse, covers⟩ := owned.backed allocation member
  exact ⟨blocks, size, tiled, owned, inUse, covers⟩

theorem Client.Holds.free (holds : client.Holds arena) (member : allocation ∈ client.live) :
    Client.Holds arena
    ⟨free arena allocation.ptr client.heap, released allocation.ptr client.live⟩ := by
  obtain ⟨blocks, size, tiled, owned, inUse, _⟩ := holds.block_of_live member
  obtain ⟨blocks', tiled', ⟨first, second, before, after⟩, _⟩ := tiled.freed inUse
  exact Client.Holds.of_tiled tiled' (owned.released before after)

variable {address : Nat}

theorem Client.Holds.store (holds : client.Holds arena) (member : allocation ∈ client.live)
    (lower : allocation.ptr ≤ address)
    (upper : address < allocation.ptr + allocation.requested) (byte : UInt8) : Client.Holds arena
      ⟨{ client.heap with memory := client.heap.memory.set address byte }, client.live⟩ := by
  obtain ⟨blocks, size, tiled, owned, inUse, covers⟩ := holds.block_of_live member
  have outside : ∀ first last, last ≤ allocation.ptr ∨ allocation.ptr + size ≤ first →
        Memory.AgreeOn (client.heap.memory.set address byte)
          client.heap.memory first last := fun first last apart =>
    Memory.set_agreeOn _ _ (by omega)
  exact Client.Holds.of_tiled (tiled.written inUse outside) owned

theorem Tiled.blockSize_of_used (tiled : Tiled arena heap blocks)
    (member : (ptr, size) ∈ used arena.base blocks) :
    blockSize heap.memory (ptr - headerSize) = size := by
  obtain ⟨before, block, later, split, _, isPayload⟩ := exists_block_of_mem_used member
  obtain ⟨ptrIs, sizeIs⟩ := Prod.mk.inj isPayload
  have laid := tiled.laid
  rw [split] at laid
  rw [ptrIs, Nat.add_sub_cancel, sizeIs]
  exact (laid_append.mp laid).2.1.size

theorem ptr_pos_of_used (member : (ptr, size) ∈ used arena.base blocks) : headerSize < ptr := by
  have bounds := (used_bounds member).1
  have positive := arena.base_pos
  simp only at bounds
  omega

theorem used_apart {first second : Nat × Nat} (memberFirst : first ∈ used address blocks)
    (memberSecond : second ∈ used address blocks) (different : first.1 ≠ second.1) :
    first.1 + first.2 + headerSize ≤ second.1 ∨ second.1 + second.2 + headerSize ≤ first.1 := by
  have symmetric : Std.Symm fun first second : Nat × Nat =>
      first.1 + first.2 + headerSize ≤ second.1 ∨ second.1 + second.2 + headerSize ≤ first.1 :=
    ⟨fun _ _ => Or.symm⟩
  have either := (used_pairwise address blocks).imp (fun {first second} order =>
      (Or.inl order : first.1 + first.2 + headerSize ≤ second.1 ∨
        second.1 + second.2 + headerSize ≤ first.1))
  exact either.forall memberFirst memberSecond fun same => different (congrArg Prod.fst same)

theorem Owned.resized (owned : Owned arena blocks live)
    (inUse : (ptr, size) ∈ used arena.base blocks) (enough : requested ≤ size) :
    Owned arena blocks (Heap.granted ptr requested (Heap.released ptr live)) := by
  have nonzero : ptr ≠ 0 := by
    have positive := ptr_pos_of_used inUse
    omega
  rw [Heap.granted, if_neg nonzero]
  refine ⟨?_, ?_⟩
  · rw [List.map_cons, List.nodup_cons]
    refine ⟨fun member => ?_, owned.distinct.sublist (List.Sublist.map _ List.filter_sublist)⟩
    obtain ⟨allocation, allocationMember, samePtr⟩ := List.mem_map.mp member
    have different := (List.mem_filter.mp allocationMember).2
    rw [samePtr] at different
    simp at different
  · refine List.forall_mem_cons.mpr ⟨⟨size, inUse, enough⟩, fun allocation isOld => ?_⟩
    exact owned.backed allocation (List.mem_filter.mp isOld).1

theorem released_granted {other : Nat} (different : ptr ≠ other)
    (live : List Allocation) : Heap.released other (Heap.granted ptr requested live) =
      Heap.granted ptr requested (Heap.released other live) := by
  unfold Heap.granted
  split
  · rfl
  · exact List.filter_cons_of_pos (by simpa using different)

theorem Granted.moved {reached : HeapState} {old oldSize : Nat}
    (grants : @Granted arena heap reached blocks blocks' size ptr)
    (owned : Owned arena blocks live)
    (inUse : (old, oldSize) ∈ used arena.base blocks) :
    let copied := copyLoop (old - headerSize) ptr old size 0 reached.memory
    let freed := Heap.free arena old { reached with memory := copied }
    Client.Holds arena ⟨freed, Heap.granted ptr size (Heap.released old live)⟩ ∧
      ∀ offset < size, offset < oldSize →
        freed.memory (ptr + offset) = heap.memory (old + offset) := by
  intro copied freed
  obtain ⟨got, large, inUseNew⟩ := grants.mem_used
  obtain ⟨inUseOld, different⟩ := grants.mem_of_mem inUse
  have apart := used_apart inUseOld inUseNew different
  have positive := ptr_pos_of_used inUse
  simp only [headerSize] at apart positive
  have outside : ∀ first last, last ≤ ptr ∨ ptr + got ≤ first →
      Memory.AgreeOn copied reached.memory first last :=
    fun first last apart => copyLoop_agreeOn _ _ _ _ _ _ (by omega)
  have tiledCopied := grants.tiled.written inUseNew outside
  obtain ⟨blocks'', tiledFreed, ⟨first, second, before, after⟩, kept⟩ := tiledCopied.freed inUseOld
  have inUseStill : (ptr, got) ∈ used arena.base blocks'' := by
    rw [before] at inUseNew
    rw [after]
    rcases List.mem_append.mp inUseNew with isFirst | isSecond
    · exact List.mem_append_left _ isFirst
    · rcases List.mem_cons.mp isSecond with isFreed | isLater
      · exact absurd (congrArg Prod.fst isFreed).symm different
      · exact List.mem_append_right _ isLater
  refine ⟨?_, ?_⟩
  · refine Client.Holds.of_tiled tiledFreed ?_
    rw [← released_granted (Ne.symm different)]
    exact (owned.granted grants (Nat.le_refl _)).released before after
  · intro offset inNew inOld
    have bytes : copied (ptr + offset) = reached.memory (old + offset) :=
      copyLoop_copies (by simp only [headerSize]; omega) (by omega) size 0
        reached.memory (grants.tiled.blockSize_of_used inUseOld)
        (Nat.zero_add size) offset (Nat.zero_le _) inNew inOld
    calc freed.memory (ptr + offset)
        = copied (ptr + offset) := kept (ptr, got) inUseStill (ptr + offset) (Nat.le_add_right _ _)
            (by simp only; omega)
      _ = reached.memory (old + offset) := bytes
      _ = heap.memory (old + offset) := grants.kept (old, oldSize) inUse (old + offset)
            (Nat.le_add_right _ _) (by simp only; omega)

theorem Client.Holds.realloc {client : Client} (holds : client.Holds arena)
    {allocation : Allocation} (member : allocation ∈ client.live)
    (size : Nat) :
    let answer := realloc arena allocation.ptr size client.heap
    Client.Holds arena ⟨answer.2, reallocated allocation.ptr size answer.1 client.live⟩ ∧
      (answer.1 ≠ 0 → ∀ offset < size,
        offset < blockSize client.heap.memory (allocation.ptr - headerSize) →
          answer.2.memory (answer.1 + offset) = client.heap.memory (allocation.ptr + offset)) := by
  intro answer
  obtain ⟨blocks, oldSize, tiled, owned, inUse, _⟩ := holds.block_of_live member
  have positive := ptr_pos_of_used inUse
  have nonzero : allocation.ptr ≠ 0 := by omega
  have sizeIs := tiled.blockSize_of_used inUse
  by_cases none : size = 0
  · have freed : answer = (0, Heap.free arena allocation.ptr client.heap) := by
      simp only [answer, Heap.realloc, if_neg nonzero, if_pos none]
    rw [freed, reallocated, if_neg nonzero, if_pos none]
    exact ⟨holds.free member, fun impossible => absurd rfl impossible⟩
  · by_cases inPlace : size ≤ oldSize
    · have same : answer = (allocation.ptr, client.heap) := by
        simp only [answer, Heap.realloc, if_neg nonzero, if_neg none, sizeIs, if_pos inPlace]
      rw [same, reallocated, if_neg nonzero, if_neg none, if_neg nonzero]
      exact ⟨Client.Holds.of_tiled tiled (owned.resized inUse inPlace), fun _ _ _ _ => rfl⟩
    · rcases tiled.allocated size with
        failed | ⟨ptr, reached, blocks', found, grants⟩
      · have failedToo : answer = (0, client.heap) := by
          simp only [answer, Heap.realloc, if_neg nonzero, if_neg none, sizeIs,
            if_neg inPlace, failed, if_true]
        rw [failedToo, reallocated, if_neg nonzero, if_neg none, if_pos rfl]
        exact ⟨Client.Holds.of_tiled tiled owned, fun impossible => absurd rfl impossible⟩
      · have moved := grants.moved owned inUse
        have answerIs : answer =
            (ptr, Heap.free arena allocation.ptr { reached with
              memory := copyLoop (allocation.ptr - headerSize) ptr
                allocation.ptr size 0 reached.memory }) := by
          simp only [answer, Heap.realloc, if_neg nonzero, if_neg none, sizeIs,
            if_neg inPlace, found, if_neg grants.pointer]
        rw [answerIs, reallocated, if_neg nonzero, if_neg none, if_neg grants.pointer, sizeIs]
        exact ⟨moved.1, fun _ => moved.2⟩

/-- The list entries of blocks laid out from an address on. -/
def listed : Nat → List Block → List Listed
  | _, [] => []
  | address, block :: rest =>
    ⟨address, block.size, block.free⟩ ::
      listed (address + block.extent) rest

variable {stop : Nat}

theorem walk_laid {memory : Memory}
    {guard : Nat} (positive : 0 < address) (laid : Laid stop memory address blocks)
    (ends : address + extents blocks = stop) (enough : blocks.length < guard) :
    walk guard (link stop address) memory = listed address blocks := by
  induction blocks generalizing address guard with
  | nil =>
    obtain ⟨rounds, rfl⟩ : ∃ rounds, guard = rounds + 1 := Nat.exists_eq_succ_of_ne_zero (by omega)
    rw [extents_nil, Nat.add_zero] at ends
    rw [ends, link_self, walk, if_pos rfl, listed]
  | cons block rest ih =>
    rw [List.length_cons] at enough
    obtain ⟨rounds, rfl⟩ : ∃ rounds, guard = rounds + 1 := Nat.exists_eq_succ_of_ne_zero (by omega)
    have extent : block.extent = 12 + block.size := rfl
    rw [extents_cons] at ends
    have later := ih (by omega) laid.2 (by omega) (Nat.lt_of_succ_lt_succ enough)
    rw [link_of_lt (by omega), walk, if_neg (by omega), laid.1.next, later,
      listed, listedAt, laid.1.size, laid.1.free]

/-- The free bytes of a list of blocks, headers included. -/
def freeExtents (blocks : List Block) : Nat :=
  extents (blocks.filter (·.free))

theorem freeLoop_laid {memory : Memory}
    {guard sum : Nat} (positive : 0 < address) (laid : Laid stop memory address blocks)
    (ends : address + extents blocks = stop) (enough : blocks.length < guard)
    (small : sum + extents blocks < 2 ^ 32) : freeLoop guard (link stop address) sum memory =
      sum + freeExtents blocks := by
  induction blocks generalizing address guard sum with
  | nil =>
    obtain ⟨rounds, rfl⟩ : ∃ rounds, guard = rounds + 1 := Nat.exists_eq_succ_of_ne_zero (by omega)
    rw [extents_nil, Nat.add_zero] at ends
    rw [ends, link_self, freeLoop, if_pos rfl]
    rfl
  | cons block rest ih =>
    rw [List.length_cons] at enough
    obtain ⟨rounds, rfl⟩ : ∃ rounds, guard = rounds + 1 := Nat.exists_eq_succ_of_ne_zero (by omega)
    have extent : block.extent = 12 + block.size := rfl
    have few : rest.length < rounds := Nat.lt_of_succ_lt_succ enough
    rw [extents_cons] at ends small
    rw [link_of_lt (by omega), freeLoop, if_neg (by omega)]
    simp only [laid.1.next, laid.1.free, laid.1.size]
    cases isFree : block.free with
    | true =>
      have added : (sum + (block.size + headerSize)) % 2 ^ 32 = sum + block.extent := by
        simp only [headerSize]
        omega
      rw [if_pos rfl, added, ih (by omega) laid.2
        (by omega) few (by omega), freeExtents, freeExtents,
        List.filter_cons_of_pos isFree, extents_cons, Nat.add_assoc]
    | false =>
      rw [if_neg (by decide), ih (by omega) laid.2
        (by omega) few (by omega), freeExtents, freeExtents,
        List.filter_cons_of_neg (by rw [isFree]; decide)]

theorem freeExtents_le (blocks : List Block) : freeExtents blocks ≤ extents blocks := by
  induction blocks with
  | nil => exact Nat.le_refl _
  | cons block rest ih =>
    unfold freeExtents at *
    rw [extents_cons]
    cases isFree : block.free with
    | true =>
      simp only [List.filter_cons, isFree, if_true, extents_cons]
      omega
    | false =>
      simp only [List.filter_cons, isFree, Bool.false_eq_true, if_false]
      omega

/-- The entries follow one another from an address to the stop. -/
def Tiles (stop : Nat) : Nat → List Listed → Prop
  | address, [] => address = stop
  | address, block :: rest =>
    block.address = address ∧
      Tiles stop (address + headerSize + block.size) rest

theorem tiles_listed
    (ends : address + extents blocks = stop) : Tiles stop address (listed address blocks) := by
  induction blocks generalizing address with
  | nil => exact ends
  | cons block rest ih =>
    rw [extents_cons, ← Nat.add_assoc] at ends
    refine ⟨rfl, ?_⟩
    have next : address + headerSize + block.size = address + block.extent := Nat.add_assoc _ _ _
    simp only [next]
    exact ih ends

theorem listed_map_free (address : Nat) (blocks : List Block) :
    (listed address blocks).map Listed.free = blocks.map Block.free := by
  induction blocks generalizing address with
  | nil => rfl
  | cons block rest ih =>
    rw [listed, List.map_cons, ih, List.map_cons]

theorem mem_listed (address : Nat) (before : List Block) (block : Block) (later : List Block) :
    ⟨address + extents before, block.size, block.free⟩ ∈
      listed address (before ++ block :: later) := by
  induction before generalizing address with
  | nil => exact List.mem_cons_self
  | cons first rest ih =>
    rw [extents_cons, ← Nat.add_assoc]
    exact List.mem_cons_of_mem _ (ih _)

theorem mem_listed_of_used {payload : Nat × Nat} (member : payload ∈ used address blocks) :
    ∃ block ∈ listed address blocks, block.address + headerSize = payload.1 ∧
      block.size = payload.2 ∧ block.free = false := by
  obtain ⟨before, block, later, rfl, notFree, rfl⟩ := exists_block_of_mem_used member
  exact ⟨_, mem_listed address before block later, rfl, rfl, notFree⟩

/-- Pointers are live or null, writes stay inside live allocations, and the
product of a `calloc` fits in 32 bits. -/
def Request.Fair (client : Client) : Request → Prop
  | .malloc _ => True
  | .calloc nmemb size => nmemb.toNat * size.toNat < 2 ^ 32
  | .realloc ptr _ => ptr = 0 ∨ ∃ allocation ∈ client.live, allocation.ptr = ptr
  | .free ptr => ptr = 0 ∨ ∃ allocation ∈ client.live, allocation.ptr = ptr
  | .store address _ => ∃ allocation ∈ client.live,
      allocation.ptr ≤ address ∧
        address < allocation.ptr + allocation.requested

/-- The payload size that the header of a pointer gives. -/
def payloadSize (heap : HeapState) (ptr : Nat) : Nat :=
  blockSize heap.memory (ptr - headerSize)

/-- What the heap promises in every state. -/
structure Client.Sound (arena : Arena) (client : Client) : Prop where
  tiles : Tiles arena.stop arena.base (blockList arena client.heap)
  settled : (blockList arena client.heap).IsChain fun block next =>
    ¬ (block.free = true ∧ next.free = true)
  payloads : ∀ allocation ∈ client.live, ∃ block ∈ blockList arena client.heap,
      block.address + headerSize = allocation.ptr ∧ block.free = false ∧
        allocation.requested ≤ block.size ∧ arena.base ≤ block.address ∧
        allocation.ptr + block.size ≤ arena.stop
  disjoint : client.live.Pairwise fun first second =>
    first.ptr + payloadSize client.heap first.ptr ≤ second.ptr ∨
      second.ptr + payloadSize client.heap second.ptr ≤ first.ptr
  stats : (heapGetStats arena client.heap).used + (heapGetStats arena client.heap).freeBytes =
    (heapGetStats arena client.heap).total

/-- A `realloc` that answers with a block keeps the bytes that both blocks
have. -/
def Request.KeepsBytes (arena : Arena) (client : Client) : Request → Prop
  | .realloc ptr size =>
    let answer := Heap.realloc arena ptr size.toNat client.heap
    ptr ≠ 0 → answer.1 ≠ 0 →
      ∀ offset < min (payloadSize client.heap ptr) size.toNat,
        answer.2.memory (answer.1 + offset) =
          client.heap.memory (ptr + offset)
  | _ => True

theorem Client.Holds.blockList_eq (tiled : Tiled arena (heapInit arena client.heap) blocks) :
    blockList arena client.heap = listed arena.base blocks := by
  have few := tiled.length_le
  unfold blockList
  simp only
  rw [← tiled.link_base]
  exact walk_laid arena.base_pos tiled.laid tiled.ends (by simp only [guardLimit]; omega)

theorem Client.Holds.sound (holds : client.Holds arena) : client.Sound arena := by
  obtain ⟨blocks, tiled, owned⟩ := holds.tiled
  have shown := Client.Holds.blockList_eq tiled
  have few := tiled.length_le
  have ends := tiled.ends
  refine ⟨?_, ?_, ?_, ?_, ?_⟩
  · rw [shown]
    exact tiles_listed ends
  · have flags : ((listed arena.base blocks).map Listed.free).IsChain
        fun first second => ¬ (first = true ∧ second = true) := by
      rw [listed_map_free]
      exact (List.isChain_map _).mpr tiled.settled
    rw [shown]
    exact (List.isChain_map _).mp flags
  · intro allocation member
    obtain ⟨size, inUse, covers⟩ := owned.backed allocation member
    obtain ⟨block, blockMember, address, sizeIs, notFree⟩ := mem_listed_of_used inUse
    have bounds := used_bounds inUse
    simp only at address sizeIs bounds
    rw [shown]
    refine ⟨block, blockMember, address, notFree, ?_, ?_, ?_⟩
    · omega
    · omega
    · omega
  · by_cases idle : client.heap.ready = false
    · rw [holds.idle idle]
      exact List.Pairwise.nil
    · rw [heapInit_of_ready (by simpa using idle)] at tiled
      refine (List.pairwise_map.mp owned.distinct).imp_of_mem ?_
      intro first second memberFirst memberSecond different
      obtain ⟨size, inUse, _⟩ := owned.backed first memberFirst
      obtain ⟨size', inUse', _⟩ := owned.backed second memberSecond
      have apart := used_apart inUse inUse' different
      rw [payloadSize, payloadSize, tiled.blockSize_of_used inUse, tiled.blockSize_of_used inUse']
      simp only [headerSize] at apart
      omega
  · have counted : freeLoop guardLimit (heapInit arena client.heap).head 0
        (heapInit arena client.heap).memory = freeExtents blocks := by
      have whole := tiled.whole
      rw [← tiled.link_base, freeLoop_laid arena.base_pos tiled.laid ends
        (by simp only [guardLimit]; omega) (by rw [whole]; decide), Nat.zero_add]
    have atMost : freeExtents blocks ≤ heapSize := tiled.whole ▸ freeExtents_le blocks
    simp only [heapGetStats, counted, if_pos atMost]
    omega

theorem Client.Holds.step {client : Client} (holds : client.Holds arena)
    {request : Request} (fair : request.Fair client) : (client.step arena request).Holds arena ∧
      request.KeepsBytes arena client := by
  cases request with
  | malloc size => exact ⟨holds.malloc (Nat.le_refl _), trivial⟩
  | calloc nmemb size => exact ⟨holds.calloc fair, trivial⟩
  | realloc ptr size =>
    rcases fair with isNull | ⟨allocation, member, isPtr⟩
    · subst isNull
      refine ⟨?_, fun nonzero => absurd rfl nonzero⟩
      exact holds.malloc (Nat.le_refl _)
    · subst isPtr
      obtain ⟨kept, bytes⟩ := holds.realloc member size.toNat
      refine ⟨kept, ?_⟩
      intro _ found offset small
      exact bytes found offset (Nat.lt_of_lt_of_le small (Nat.min_le_right _ _))
        (Nat.lt_of_lt_of_le small (Nat.min_le_left _ _))
  | free ptr =>
    refine ⟨?_, trivial⟩
    rcases fair with isNull | ⟨allocation, member, isPtr⟩
    · subst isNull
      have nothing : Heap.released 0 client.live = client.live := by
        refine List.filter_eq_self.mpr ?_
        intro allocation member
        obtain ⟨_, _, _, _, inUse, _⟩ := holds.block_of_live member
        have positive := ptr_pos_of_used inUse
        simp only [decide_eq_true_eq]
        omega
      simp only [Client.step, nothing]
      exact holds
    · subst isPtr
      exact holds.free member
  | store address byte =>
    obtain ⟨allocation, member, lower, upper⟩ := fair
    exact ⟨holds.store member lower upper byte, trivial⟩

/-- In every run of requests from a heap not yet used, as long as only live
pointers are freed and reallocated and no `calloc` product wraps, the block list
tiles the arena, no two free blocks are neighbours, live payloads are disjoint
and large enough, the statistics add up, and `realloc` keeps the bytes. -/
theorem heap_sound (arena : Arena) (memory : Memory) (requests : List Request)
    (fair : AlongRun (Client.step arena) (fun client request => request.Fair client)
      ⟨⟨memory, 0, false⟩, []⟩ requests) : AlongRun (Client.step arena)
      (fun client request => (client.step arena request).Sound arena ∧
        request.KeepsBytes arena client) ⟨⟨memory, 0, false⟩, []⟩ requests := by
  have start : Client.Holds arena ⟨⟨memory, 0, false⟩, []⟩ := by
    refine ⟨fun _ => rfl, _, heapInit_tiled rfl, ?_⟩
    exact ⟨List.nodup_nil, fun _ member => by cases member⟩
  refine AlongRun.of_invariant (fun _ _ holds allowed =>
    (holds.step allowed).1) ?_ fair start
  intro client request holds allowed
  exact ⟨(holds.step allowed).1.sound, (holds.step allowed).2⟩

def someArena : Arena where
  base := 0x100000
  base_pos := by decide
  base_fits := by decide

theorem heap_sound_malloc : AlongRun (Client.step someArena)
      (fun client request => (client.step someArena request).Sound someArena ∧
        request.KeepsBytes someArena client)
      ⟨⟨fun _ => 0, 0, false⟩, []⟩ [.malloc 100, .calloc 4 8] :=
  heap_sound someArena (fun _ => 0) [.malloc 100, .calloc 4 8]
    ⟨trivial, (by decide : UInt32.toNat 4 * UInt32.toNat 8 < 2 ^ 32), trivial⟩

/-- Two elements of `2 ^ 31 + 4` bytes each: the product wraps to 8, and
`calloc` answers with a block of 8 bytes. -/
theorem calloc_wraps :
    let client := Client.step someArena ⟨⟨fun _ => 0, 0, false⟩, []⟩
      (.calloc 2 2147483652)
    client.live = [⟨someArena.base + headerSize, 4294967304⟩] ∧
      payloadSize client.heap (someArena.base + headerSize) = 8 ∧
      ¬ client.Sound someArena := by
  intro client
  have live : client.live =
      [⟨someArena.base + headerSize, 4294967304⟩] := by
    decide +kernel
  have size : payloadSize client.heap (someArena.base + headerSize) = 8 := by
    decide +kernel
  refine ⟨live, size, fun sound => ?_⟩
  obtain ⟨block, _, _, _, enough, lower, upper⟩ := sound.payloads
    ⟨someArena.base + headerSize, 4294967304⟩
    (by rw [live]; exact List.mem_cons_self)
  have stop : someArena.stop = 1572864 := rfl
  simp only at enough upper
  omega

end KnitOS.Heap
