import KnitOS.Heap.Blocks

/-!
# A heap whose blocks fill the arena

`malloc` and `free` keep the blocks tiling the arena with no two free neighbours:
the one adds a payload to those in use, the other removes one, and neither
changes the bytes of the rest.
-/

namespace KnitOS.Heap

open Lib

variable (arena : Arena)

/-- The heap is set up, and its headers describe blocks that fill the arena. -/
structure Tiled (heap : HeapState) (blocks : List Block) : Prop where
  ready : heap.ready = true
  head : heap.head = arena.base
  laid : Laid arena.stop heap.memory arena.base blocks
  whole : extents blocks = heapSize
  settled : Settled blocks

variable {arena} {heap : HeapState}

theorem heapInit_of_ready (ready : heap.ready = true) : heapInit arena heap = heap := if_pos ready

theorem heapInit_ready (heap : HeapState) : (heapInit arena heap).ready = true := by
  unfold heapInit
  split
  · assumption
  · rfl

theorem Arena.stop_le (arena : Arena) : arena.stop ≤ 2 ^ 32 := arena.base_fits

theorem heapInit_tiled {heap : HeapState} (idle : heap.ready = false) :
    Tiled arena (heapInit arena heap) [⟨heapSize - headerSize, true⟩] := by
  have written : heapInit arena heap =
      { memory := freeHeader heap.memory arena.base (heapSize - headerSize) 0
        head := arena.base
        ready := true } := by
    rw [heapInit, if_neg (by rw [idle]; decide)]
    rfl
  have ends : arena.base + (headerSize + (heapSize - headerSize)) =
    arena.stop := rfl
  rw [written]
  refine ⟨rfl, rfl, ⟨freeHeader_headerIs _ (by decide) (by decide) ?_,
    trivial⟩, rfl, List.isChain_singleton _⟩
  rw [ends, link_self]

namespace Tiled

variable {heap : HeapState} {blocks : List Block} (tiled : Tiled arena heap blocks)
include tiled

theorem ends : arena.base + extents blocks = arena.stop := by
  rw [tiled.whole]
  rfl

theorem length_le : blocks.length ≤ 43690 := by
  have counted : ∀ some : List Block, 12 * some.length ≤ extents some := by
    intro some
    induction some with
    | nil => exact Nat.le_refl _
    | cons block rest ih =>
      have extent : block.extent = 12 + block.size := rfl
      rw [List.length_cons, extents_cons]
      omega
  have all := counted blocks
  have whole : extents blocks = 524288 := tiled.whole
  omega

theorem link_base : link arena.stop arena.base = heap.head := by
  rw [tiled.head, link_of_lt]
  exact Nat.lt_add_of_pos_right (by decide)

end Tiled

variable {block : Block}

theorem settled_carved (size : Nat) {before later : List Block} (isFree : block.free = true)
    (settled : Settled (before ++ block :: later)) :
    Settled (before ++ (carved size block ++ later)) := by
  unfold Settled at *
  rw [List.isChain_append] at settled
  obtain ⟨settledBefore, settledFrom, _⟩ := settled
  rw [List.isChain_cons] at settledFrom
  rw [List.isChain_append]
  refine ⟨settledBefore, ?_, ?_⟩
  · unfold carved
    split
    · refine List.isChain_cons_cons.mpr ⟨by simp, List.isChain_cons.mpr ⟨?_, settledFrom.2⟩⟩
      intro next isNext bothFree
      exact settledFrom.1 next isNext ⟨isFree, bothFree.2⟩
    · exact List.isChain_cons.mpr ⟨by simp, settledFrom.2⟩
  · intro last _ first isFirst
    unfold carved at isFirst
    split at isFirst
    · simp at isFirst
      simp [← isFirst]
    · simp at isFirst
      simp [← isFirst]

variable {size : Nat}

theorem used_carved (address : Nat) (fits : block.Fits size) :
    ∃ got, size ≤ got ∧ used address (carved size block) = [(address + headerSize, got)] := by
  unfold carved
  split
  · exact ⟨size, Nat.le_refl _, rfl⟩
  · exact ⟨block.size, fits.2, rfl⟩

/-- What a successful allocation does: the payload it returns joins those in
use, whose bytes stay. -/
structure Granted (heap reached : HeapState) (blocks blocks' : List Block)
    (size ptr : Nat) : Prop where
  tiled : Tiled arena reached blocks'
  pointer : ptr ≠ 0
  joins : ∃ first got second, size ≤ got ∧ used arena.base blocks = first ++ second ∧
      used arena.base blocks' = first ++ (ptr, got) :: second
  kept : ∀ payload ∈ used arena.base blocks, Memory.AgreeOn reached.memory heap.memory payload.1
      (payload.1 + payload.2)

theorem Tiled.taken {before later : List Block}
    (tiled : Tiled arena heap (before ++ block :: later))
    (fits : block.Fits size) : @Granted arena heap
      { heap with
        memory := takeBlock size (arena.base + extents before) heap.memory }
      (before ++ block :: later) (before ++ (carved size block ++ later)) size
      (arena.base + extents before + headerSize) := by
  obtain ⟨laidBefore, laidHere, laidLater⟩ := laid_append.mp tiled.laid
  have ends := tiled.ends
  rw [extents_append, extents_cons] at ends
  obtain ⟨laidCarved, outside⟩ := takeBlock_spec laidHere size (by omega) arena.stop_le
  have sameExtent := extents_carved size block
  refine ⟨⟨tiled.ready, tiled.head, ?_, ?_, settled_carved size fits.1 tiled.settled⟩, ?_, ?_, ?_⟩
  · refine laid_append.mpr ⟨laidBefore.congr (outside _ _ (by omega)),
      laid_append.mpr ⟨laidCarved, ?_⟩⟩
    rw [sameExtent]
    exact laidLater.congr (outside _ _ (by omega))
  · have whole := tiled.whole
    rw [extents_append, extents_cons] at whole
    rw [extents_append, extents_append, sameExtent, whole]
  · have positive := arena.base_pos
    omega
  · obtain ⟨got, large, usedCarved⟩ := used_carved (arena.base + extents before) fits
    refine ⟨used arena.base before, got,
      used (arena.base + extents before + block.extent) later, large, ?_, ?_⟩
    · rw [used_append, used, if_pos fits.1]
    · rw [used_append, used_append, usedCarved, sameExtent, List.singleton_append]
  · intro payload member
    rw [used_append, used, if_pos fits.1] at member
    rcases List.mem_append.mp member with isBefore | isLater
    · have bounds := used_bounds isBefore
      exact outside _ _ (by omega)
    · have bounds := used_bounds isLater
      exact outside _ _ (by omega)

variable {blocks : List Block}

theorem Tiled.searched (tiled : Tiled arena heap blocks) (size : Nat) :
    mallocLoop size guardLimit heap.head heap.memory = (0, heap.memory) ∨ ∃ ptr memory blocks',
        mallocLoop size guardLimit heap.head heap.memory = (ptr, memory) ∧
          @Granted arena heap { heap with memory } blocks blocks' size ptr := by
  have few := tiled.length_le
  have positive := arena.base_pos
  cases found : blocks.find? (·.Fits size) with
  | none =>
    left
    have tooSmall : ∀ block ∈ blocks, ¬ block.Fits size := by
      intro block member
      simpa using List.find?_eq_none.mp found block member
    have rounds : guardLimit = guardLimit - blocks.length - 1 + 1 + blocks.length := by
      simp only [guardLimit]
      omega
    rw [← tiled.link_base, rounds, mallocLoop_skip _ positive tiled.laid
      (Nat.le_of_eq tiled.ends) tooSmall, tiled.ends, link_self, mallocLoop, if_pos rfl]
  | some block =>
    right
    obtain ⟨fitsHere, before, later, split, others⟩ := List.find?_eq_some_iff_append.mp found
    have fits : block.Fits size := of_decide_eq_true fitsHere
    have tooSmall : ∀ other ∈ before, ¬ other.Fits size := by
      intro other member
      simpa using others other member
    subst split
    obtain ⟨laidBefore, laidHere, _⟩ := laid_append.mp tiled.laid
    have ends := tiled.ends
    rw [extents_append, extents_cons] at ends
    have extent : block.extent = 12 + block.size := rfl
    have rounds : guardLimit = guardLimit - before.length - 1 + 1 + before.length := by
      rw [List.length_append] at few
      simp only [guardLimit]
      omega
    have fitsFields : blockFree heap.memory (arena.base + extents before) = true ∧
        size ≤ blockSize heap.memory (arena.base + extents before) := by
      rw [laidHere.free, laidHere.size]
      exact fits
    refine ⟨_, _, _, ?_, tiled.taken fits⟩
    rw [← tiled.link_base, rounds,
      mallocLoop_skip _ positive laidBefore (by omega) tooSmall, link_of_lt
        (by omega), mallocLoop, if_neg (by omega), if_pos fitsFields]

theorem le_alignUp (small : size ≤ heapSize) : size ≤ alignUp size := by
  simp only [alignUp, heapAlign, heapSize] at *
  omega

theorem Tiled.allocated
    (tiled : Tiled arena heap blocks) (size : Nat) : malloc arena size heap = (0, heap) ∨
      ∃ ptr reached blocks', malloc arena size heap = (ptr, reached) ∧
        @Granted arena heap reached blocks blocks' size ptr := by
  unfold malloc
  split
  · exact Or.inl rfl
  · rw [heapInit_of_ready tiled.ready]
    dsimp only
    split
    · exact Or.inl rfl
    · rename_i small
      split
      · exact Or.inl rfl
      · rcases tiled.searched (alignUp size) with
          failed | ⟨ptr, memory, blocks', found, grants⟩
        · left
          rw [failed]
        · right
          refine ⟨ptr, { heap with memory }, blocks', by rw [found],
            grants.tiled, grants.pointer, ?_, grants.kept⟩
          obtain ⟨first, got, second, large, before, after⟩ := grants.joins
          exact ⟨first, got, second,
            Nat.le_trans (le_alignUp (Nat.le_of_not_lt small)) large, before, after⟩

variable {ptr : Nat}

theorem Tiled.freed (tiled : Tiled arena heap blocks)
    (member : (ptr, size) ∈ used arena.base blocks) :
    ∃ blocks', Tiled arena (free arena ptr heap) blocks' ∧ (∃ first second,
        used arena.base blocks = first ++ (ptr, size) :: second ∧
          used arena.base blocks' = first ++ second) ∧ ∀ payload ∈ used arena.base blocks',
        Memory.AgreeOn (free arena ptr heap).memory heap.memory payload.1
          (payload.1 + payload.2) := by
  obtain ⟨before, block, later, split, notFree, isPayload⟩ := exists_block_of_mem_used member
  subst split
  obtain ⟨ptrIs, sizeIs⟩ := Prod.mk.inj isPayload
  obtain ⟨laidBefore, laidHere, laidLater⟩ := laid_append.mp tiled.laid
  have few := tiled.length_le
  have ends := tiled.ends
  have positive := arena.base_pos
  have extent : block.extent = 12 + block.size := rfl
  have pointer : ptr = arena.base + extents before + 12 := ptrIs
  rw [extents_append, extents_cons] at ends
  generalize markedIs : setFree heap.memory (arena.base + extents before) 1 = marked
  have outside : ∀ first last, last ≤ arena.base + extents before ∨
      arena.base + extents before + headerSize ≤ first →
        Memory.AgreeOn marked heap.memory first last := by
    intro first last apart
    rw [← markedIs]
    exact setFree_agreeOn _ _ (by omega)
  have laidMarked : Laid arena.stop marked arena.base (before ++ ⟨block.size, true⟩ :: later) := by
    refine laid_append.mpr ⟨laidBefore.congr (outside _ _ (by omega)),
      markedIs ▸ laidHere.setFree 1, laidLater.congr (outside _ _ ?_)⟩
    · right
      simp only [Block.extent]
      omega
  have freed : free arena ptr heap =
      { heap with
        memory := coalesceLoop guardLimit arena.base marked } := by
    have block : ptr - headerSize = arena.base + extents before := by
      simp only [headerSize]
      omega
    have inArena : ¬ (ptr - headerSize < arena.base ∨ arena.stop ≤ ptr - headerSize) := by
      rw [block]
      omega
    rw [free, if_neg (by omega), heapInit_of_ready tiled.ready]
    simp only
    rw [if_neg inArena, block, markedIs, tiled.head]
  have usedMarked : used arena.base (before ++ ⟨block.size, true⟩ :: later) =
      used arena.base before ++ used (arena.base + extents before + block.extent) later := by
    rw [used_append, used, if_pos rfl]
    rfl
  obtain ⟨first, rest, isList⟩ : ∃ first rest,
    before ++ ⟨block.size, true⟩ :: later = first :: rest := List.exists_cons_of_ne_nil (by simp)
  have wholeMarked : extents (first :: rest) = heapSize := by
    have whole := tiled.whole
    rw [← isList]
    rw [extents_append, extents_cons] at whole ⊢
    exact whole
  have enough : rest.length ≤ guardLimit := by
    have counted := congrArg List.length isList
    simp only [List.length_append, List.length_cons] at counted few
    simp only [guardLimit]
    omega
  rw [isList] at laidMarked usedMarked
  obtain ⟨laidJoined, _, kept⟩ := coalesceLoop_spec arena.stop_le guardLimit
    arena.base marked first rest positive enough laidMarked (by rw [wholeMarked]; rfl)
  have usedJoined := used_coalesced arena.base (first :: rest)
  refine ⟨coalesced (first :: rest), ?_, ?_, ?_⟩
  · rw [freed]
    exact ⟨tiled.ready, tiled.head, laidJoined,
      (extents_coalesced _).trans wholeMarked, settled_coalesced _⟩
  · refine ⟨used arena.base before, used (arena.base + extents before + block.extent) later, ?_, ?_⟩
    · rw [used_append, used, if_neg (by rw [notFree]; decide), isPayload]
    · rw [usedJoined, usedMarked]
  · intro payload payloadMember
    rw [usedJoined] at payloadMember
    rw [freed]
    refine (kept payload payloadMember).trans (outside _ _ ?_)
    rw [usedMarked] at payloadMember
    rcases List.mem_append.mp payloadMember with isBefore | isLater
    · have bounds := used_bounds isBefore
      omega
    · have bounds := used_bounds isLater
      simp only [headerSize] at *
      omega

theorem Tiled.written (tiled : Tiled arena heap blocks)
    (member : (ptr, size) ∈ used arena.base blocks) {memory : Memory}
    (outside : ∀ first last, last ≤ ptr ∨ ptr + size ≤ first →
      Memory.AgreeOn memory heap.memory first last) : Tiled arena { heap with memory } blocks := by
  obtain ⟨before, block, later, split, _, isPayload⟩ := exists_block_of_mem_used member
  obtain ⟨ptrIs, sizeIs⟩ := Prod.mk.inj isPayload
  have pointer : ptr = arena.base + extents before + 12 := ptrIs
  have extent : block.extent = 12 + block.size := rfl
  refine ⟨tiled.ready, tiled.head, ?_, tiled.whole, tiled.settled⟩
  have laid := tiled.laid
  rw [split] at laid ⊢
  obtain ⟨laidBefore, laidHere, laidLater⟩ := laid_append.mp laid
  exact laid_append.mpr ⟨laidBefore.congr (outside _ _ (by omega)),
    laidHere.congr (outside _ _ (by simp only [headerSize]; omega)),
    laidLater.congr (outside _ _ (by omega))⟩

theorem clearLoop_agreeOn (ptr : Nat) {first last : Nat} :
    ∀ (count position : Nat) (memory : Memory),
      last ≤ ptr + position ∨ ptr + position + count ≤ first →
        Memory.AgreeOn (clearLoop ptr count position memory) memory first last := by
  intro count
  induction count with
  | zero =>
    intro position memory _ _ _ _
    rfl
  | succ count ih =>
    intro position memory apart
    exact (ih (position + 1) _ (by omega)).trans (Memory.set_agreeOn memory 0 (by omega))

theorem copyLoop_agreeOn (block dst src : Nat) {first last : Nat} :
    ∀ (count position : Nat) (memory : Memory),
      last ≤ dst + position ∨ dst + position + count ≤ first →
        Memory.AgreeOn (copyLoop block dst src count position memory) memory first last := by
  intro count
  induction count with
  | zero =>
    intro position memory _ _ _ _
    rfl
  | succ count ih =>
    intro position memory apart
    rw [copyLoop]
    split
    · exact (ih (position + 1) _ (by omega)).trans (Memory.set_agreeOn memory _ (by omega))
    · exact fun _ _ _ => rfl

theorem copyLoop_copies {block dst src oldSize : Nat}
    (header : dst + size ≤ block ∨ block + headerSize ≤ dst)
    (source : dst + size ≤ src ∨ src + oldSize ≤ dst) : ∀ (count position : Nat) (memory : Memory),
      blockSize memory block = oldSize → position + count = size →
      ∀ offset, position ≤ offset → offset < size → offset < oldSize →
        copyLoop block dst src count position memory (dst + offset) = memory (src + offset) := by
  intro count
  induction count with
  | zero =>
    intro position memory _ all offset _ _ _
    omega
  | succ count ih =>
    intro position memory sizeIs all offset reached inNew inOld
    rw [copyLoop, sizeIs, if_pos (by omega)]
    generalize writtenIs : memory.set (dst + position) (memory (src + position)) = written
    have outside : ∀ first last, last ≤ dst + position ∨
        dst + position < first → Memory.AgreeOn written memory first last := by
      intro first last apart
      rw [← writtenIs]
      exact Memory.set_agreeOn memory _ (by omega)
    have sizeKept : blockSize written block = oldSize := (Memory.word_congr (outside _ _
      (by simp only [headerSize] at header; omega))).trans sizeIs
    by_cases here : offset = position
    · have later : Memory.AgreeOn (copyLoop block dst src count (position + 1) written) written
          (dst + position) (dst + position + 1) :=
        copyLoop_agreeOn block dst src count (position + 1) written (by omega)
      have copied := later (dst + position) (Nat.le_refl _) (Nat.lt_succ_self _)
      rw [here, copied, ← writtenIs, Memory.set_same]
    · rw [ih (position + 1) written sizeKept (by omega) offset (by omega) inNew inOld]
      exact outside (src + offset) (src + offset + 1) (by omega) _
        (Nat.le_refl _) (Nat.lt_succ_self _)

theorem used_ptr_nodup (address : Nat) (blocks : List Block) :
    ((used address blocks).map Prod.fst).Nodup := by
  refine List.Pairwise.map _ ?_ (used_pairwise address blocks)
  intro first second order
  simp only [headerSize] at order
  omega

theorem Granted.mem_of_mem {reached : HeapState}
    {blocks' : List Block} (grants : @Granted arena heap reached blocks blocks' size ptr)
    {payload : Nat × Nat} (member : payload ∈ used arena.base blocks) :
    payload ∈ used arena.base blocks' ∧ payload.1 ≠ ptr := by
  obtain ⟨first, got, second, _, before, after⟩ := grants.joins
  have unique := used_ptr_nodup arena.base blocks'
  rw [after, List.map_append, List.map_cons] at unique
  rw [before] at member
  refine ⟨?_, ?_⟩
  · rw [after]
    rcases List.mem_append.mp member with isFirst | isSecond
    · exact List.mem_append_left _ isFirst
    · exact List.mem_append_right _ (List.mem_cons_of_mem _ isSecond)
  · intro same
    have inOthers : ptr ∈ (first.map Prod.fst) ++ second.map Prod.fst := by
      rw [← List.map_append, ← same]
      exact List.mem_map_of_mem member
    exact (List.nodup_cons.mp ((List.perm_middle.nodup_iff).mp unique)).1 inOthers

theorem Granted.mem_used {reached : HeapState}
    {blocks' : List Block} (grants : @Granted arena heap reached blocks blocks' size ptr) :
    ∃ got, size ≤ got ∧ (ptr, got) ∈ used arena.base blocks' := by
  obtain ⟨first, got, second, large, _, after⟩ := grants.joins
  refine ⟨got, large, ?_⟩
  rw [after]
  exact List.mem_append_right _ List.mem_cons_self

end KnitOS.Heap
