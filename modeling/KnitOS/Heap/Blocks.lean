import KnitOS.Heap.Allocator
import Mathlib.Data.List.Chain

/-!
# Blocks laid out in memory

The list of blocks that the headers describe, one right behind the other.  The
loops of the heap are related to what they do to that list: `malloc` carves a
block, `heap_coalesce` joins free neighbours, and neither touches the payload of
a used block.
-/

namespace KnitOS.Heap

open Lib

structure Block where
  size : Nat
  free : Bool
deriving DecidableEq

def Block.extent (block : Block) : Nat :=
  headerSize + block.size

def extents (blocks : List Block) : Nat :=
  (blocks.map Block.extent).sum

@[simp]
theorem extents_nil : extents [] = 0 := rfl

@[simp]
theorem extents_cons (block : Block) (blocks : List Block) :
    extents (block :: blocks) = block.extent + extents blocks := rfl

@[simp]
theorem extents_append (first second : List Block) :
    extents (first ++ second) = extents first + extents second := by
  simp [extents]

/-- The pointer to what starts at an address: nothing does at the end of the
arena. -/
def link (stop address : Nat) : Nat :=
  if address = stop then 0 else address

/-- The header at an address describes the block. -/
structure HeaderIs (stop : Nat) (memory : Memory) (address : Nat) (block : Block) : Prop where
  size : blockSize memory address = block.size
  free : blockFree memory address = block.free
  next : blockNext memory address = link stop (address + block.extent)

/-- The headers from an address on describe the blocks. -/
def Laid (stop : Nat) (memory : Memory) : Nat → List Block → Prop
  | _, [] => True
  | address, block :: rest =>
    HeaderIs stop memory address block ∧
      Laid stop memory (address + block.extent) rest

variable {address stop : Nat} {memory : Memory}

theorem laid_append {first second : List Block} : Laid stop memory address (first ++ second) ↔
    Laid stop memory address first ∧ Laid stop memory (address + extents first) second := by
  induction first generalizing address with
  | nil => simp [Laid]
  | cons block rest ih =>
    rw [List.cons_append, Laid, Laid, ih, extents_cons, Nat.add_assoc, and_assoc]

theorem HeaderIs.congr {first second : Memory}
    {block : Block} (header : HeaderIs stop first address block)
    (agree : Memory.AgreeOn second first address (address + headerSize)) :
    HeaderIs stop second address block := by
  refine ⟨?_, ?_, ?_⟩
  · exact (Memory.word_congr (agree.mono (by omega)
      (by simp only [headerSize]; omega))).trans header.size
  · have flag := agree (address + 4) (by omega) (by simp only [headerSize]; omega)
    rw [← header.free, blockFree, blockFree, flag]
  · exact (Memory.word_congr (agree.mono (by omega)
      (by simp only [headerSize]; omega))).trans header.next

variable {blocks : List Block}

theorem Laid.congr {first second : Memory} (laid : Laid stop first address blocks)
    (agree : Memory.AgreeOn second first address (address + extents blocks)) :
    Laid stop second address blocks := by
  induction blocks generalizing address with
  | nil => trivial
  | cons block rest ih =>
    rw [extents_cons] at agree
    have extent : block.extent = headerSize + block.size := rfl
    exact ⟨laid.1.congr (agree.mono (Nat.le_refl _) (by omega)),
      ih laid.2 (agree.mono (by omega) (by omega))⟩

/-- The payloads of the used blocks: their addresses and sizes. -/
def used : Nat → List Block → List (Nat × Nat)
  | _, [] => []
  | address, block :: rest =>
    if block.free then
      used (address + block.extent) rest
    else
      (address + headerSize, block.size) ::
        used (address + block.extent) rest

theorem used_append (address : Nat) (first second : List Block) : used address (first ++ second) =
    used address first ++ used (address + extents first) second := by
  induction first generalizing address with
  | nil => rfl
  | cons block rest ih =>
    rw [List.cons_append, used, used, ih, extents_cons, ← Nat.add_assoc]
    split
    · rfl
    · rfl

theorem used_bounds {payload : Nat × Nat} (member : payload ∈ used address blocks) :
    address + headerSize ≤ payload.1 ∧ payload.1 + payload.2 ≤ address + extents blocks := by
  induction blocks generalizing address with
  | nil => cases member
  | cons block rest ih =>
    have extent : block.extent = headerSize + block.size := rfl
    rw [extents_cons]
    rw [used] at member
    split at member
    · have later := ih member
      omega
    · rcases List.mem_cons.mp member with isFirst | isLater
      · rw [isFirst]
        constructor
        · exact Nat.le_refl _
        · simp only
          omega
      · have later := ih isLater
        omega

theorem used_pairwise (address : Nat) (blocks : List Block) :
    (used address blocks).Pairwise fun first second =>
      first.1 + first.2 + headerSize ≤ second.1 := by
  induction blocks generalizing address with
  | nil => exact List.Pairwise.nil
  | cons block rest ih =>
    rw [used]
    split
    · exact ih _
    · refine List.pairwise_cons.mpr ⟨?_, ih _⟩
      intro payload member
      have bounds := (used_bounds member).1
      have extent : block.extent = headerSize + block.size := rfl
      simp only [headerSize] at *
      omega

theorem exists_block_of_mem_used {payload : Nat × Nat} (member : payload ∈ used address blocks) :
    ∃ before block later, blocks = before ++ block :: later ∧ block.free = false ∧
      payload = (address + extents before + headerSize, block.size) := by
  induction blocks generalizing address with
  | nil => cases member
  | cons first rest ih =>
    rw [used] at member
    have inRest : payload ∈ used (address + first.extent) rest →
        ∃ before block later, first :: rest = before ++ block :: later ∧ block.free = false ∧
          payload = (address + extents before + headerSize, block.size) := by
      intro inRest
      obtain ⟨before, block, later, split, notFree, isPayload⟩ := ih inRest
      refine ⟨first :: before, block, later, by rw [split]; rfl, notFree, ?_⟩
      rw [isPayload, extents_cons, ← Nat.add_assoc]
    split at member
    · exact inRest member
    · rename_i notFree
      rcases List.mem_cons.mp member with isFirst | isLater
      · exact ⟨[], first, rest, rfl, by simpa using notFree, isFirst⟩
      · exact inRest isLater

/-- The block serves a request of the size. -/
def Block.Fits (size : Nat) (block : Block) : Prop :=
  block.free = true ∧ size ≤ block.size

instance decidableFits (size : Nat) (block : Block) : Decidable (block.Fits size) :=
  inferInstanceAs (Decidable (_ ∧ _))

theorem link_of_lt (before : address < stop) : link stop address = address :=
  if_neg (Nat.ne_of_lt before)

theorem link_self (stop : Nat) : link stop stop = 0 := if_pos rfl

variable {size : Nat}

theorem mallocLoop_skip {before : List Block} (guard : Nat) (positive : 0 < address)
    (laid : Laid stop memory address before) (inside : address + extents before ≤ stop)
    (tooSmall : ∀ block ∈ before, ¬ block.Fits size) :
    mallocLoop size (guard + before.length) (link stop address) memory =
      mallocLoop size guard (link stop (address + extents before)) memory := by
  induction before generalizing address with
  | nil => rfl
  | cons block rest ih =>
    have extent : block.extent = headerSize + block.size := rfl
    rw [extents_cons] at inside
    have notFits : ¬ (block.free = true ∧ size ≤ block.size) := tooSmall block List.mem_cons_self
    have early : address < stop := by
      simp only [headerSize] at extent
      omega
    have later := ih (by omega) laid.2 (by omega) (List.forall_mem_cons.mp tooSmall).2
    rw [List.length_cons, ← Nat.add_assoc, link_of_lt early, mallocLoop,
      if_neg (by omega), laid.1.size, laid.1.free, if_neg notFits,
      laid.1.next, later, extents_cons, Nat.add_assoc]

/-- The blocks that `malloc` makes of the one it chose. -/
def carved (size : Nat) (block : Block) : List Block :=
  if headerSize + heapAlign < block.size - size then
    [⟨size, false⟩, ⟨block.size - size - headerSize, true⟩]
  else
    [⟨block.size, false⟩]

theorem extents_carved (size : Nat) (block : Block) :
    extents (carved size block) = block.extent := by
  unfold carved
  split
  · simp only [extents_cons, extents_nil, Block.extent, headerSize] at *
    omega
  · rfl

variable {block first last : Nat}

theorem setSize_agreeOn (memory : Memory)
    (value : Nat) (outside : block + headerSize ≤ first ∨ last ≤ block) :
    Memory.AgreeOn (setSize memory block value) memory first last :=
  Memory.setWord_agreeOn memory value (by simp only [headerSize] at outside; omega)

theorem setFree_agreeOn (memory : Memory)
    (value : UInt8) (outside : block + headerSize ≤ first ∨ last ≤ block) :
    Memory.AgreeOn (setFree memory block value) memory first last := Memory.set_agreeOn memory value
    (by simp only [headerSize] at outside; omega)

theorem setNext_agreeOn (memory : Memory)
    (value : Nat) (outside : block + headerSize ≤ first ∨ last ≤ block) :
    Memory.AgreeOn (setNext memory block value) memory first last :=
  Memory.setWord_agreeOn memory value (by simp only [headerSize] at outside; omega)

section

variable (memory : Memory) (block : Nat)

@[simp]
theorem blockSize_setFree (value : UInt8) :
    blockSize (setFree memory block value) block = blockSize memory block :=
  Memory.word_congr (Memory.set_agreeOn memory value (by omega))

@[simp]
theorem blockSize_setNext (value : Nat) :
    blockSize (setNext memory block value) block = blockSize memory block :=
  Memory.word_congr (Memory.setWord_agreeOn memory value (by omega))

@[simp]
theorem blockFree_setSize (value : Nat) :
    blockFree (setSize memory block value) block = blockFree memory block := by
  have flag : setSize memory block value (block + 4) = memory (block + 4) :=
    Memory.setWord_agreeOn memory value (Or.inl (Nat.le_refl _)) _
      (Nat.le_refl _) (Nat.lt_succ_self _)
  rw [blockFree, blockFree, flag]

@[simp]
theorem blockFree_setNext (value : Nat) :
    blockFree (setNext memory block value) block = blockFree memory block := by
  have flag : setNext memory block value (block + 4) = memory (block + 4) :=
    Memory.setWord_agreeOn memory value (Or.inr (by omega)) _ (Nat.le_refl _) (Nat.lt_succ_self _)
  rw [blockFree, blockFree, flag]

@[simp]
theorem blockNext_setSize (value : Nat) :
    blockNext (setSize memory block value) block = blockNext memory block :=
  Memory.word_congr (Memory.setWord_agreeOn memory value (by omega))

@[simp]
theorem blockNext_setFree (value : UInt8) :
    blockNext (setFree memory block value) block = blockNext memory block :=
  Memory.word_congr (Memory.set_agreeOn memory value (by omega))

variable {memory block}

theorem blockSize_setSize {value : Nat} (small : value < 2 ^ 32) :
    blockSize (setSize memory block value) block = value := Memory.word_setWord memory small

@[simp]
theorem blockFree_setFree (value : UInt8) :
    blockFree (setFree memory block value) block = decide (value ≠ 0) := by
  rw [blockFree, setFree, Memory.set_same]

theorem blockNext_setNext {value : Nat} (small : value < 2 ^ 32) :
    blockNext (setNext memory block value) block = value := Memory.word_setWord memory small

end

/-- A free header, written in the order of `heap_init` and `malloc`. -/
def freeHeader (memory : Memory) (block size next : Nat) : Memory :=
  setNext (setFree (setSize memory block size) block 1) block next

theorem freeHeader_agreeOn (memory : Memory)
    (size next : Nat) (outside : block + headerSize ≤ first ∨ last ≤ block) :
    Memory.AgreeOn (freeHeader memory block size next) memory first last :=
  ((setNext_agreeOn _ _ outside).trans (setFree_agreeOn _ _ outside)).trans
    (setSize_agreeOn _ _ outside)

theorem freeHeader_headerIs (memory : Memory)
    {next : Nat} (smallSize : size < 2 ^ 32) (smallNext : next < 2 ^ 32)
    (linked : next = link stop (block + (headerSize + size))) :
    HeaderIs stop (freeHeader memory block size next) block ⟨size, true⟩ := by
  refine ⟨?_, ?_, ?_⟩
  · rw [freeHeader, blockSize_setNext, blockSize_setFree, blockSize_setSize smallSize]
  · rw [freeHeader, blockFree_setNext, blockFree_setFree]
    rfl
  · rw [freeHeader, blockNext_setNext smallNext]
    exact linked

def takenHeader (memory : Memory) (block size next : Nat) : Memory :=
  setFree (setSize (setNext memory block next) block size) block 0

theorem takenHeader_agreeOn (memory : Memory)
    (size next : Nat) (outside : block + headerSize ≤ first ∨ last ≤ block) :
    Memory.AgreeOn (takenHeader memory block size next) memory first last :=
  ((setFree_agreeOn _ _ outside).trans (setSize_agreeOn _ _ outside)).trans
    (setNext_agreeOn _ _ outside)

theorem takenHeader_headerIs (memory : Memory)
    {next : Nat} (smallSize : size < 2 ^ 32) (smallNext : next < 2 ^ 32)
    (linked : next = link stop (block + (headerSize + size))) :
    HeaderIs stop (takenHeader memory block size next) block ⟨size, false⟩ := by
  refine ⟨?_, ?_, ?_⟩
  · rw [takenHeader, blockSize_setFree, blockSize_setSize smallSize]
  · rw [takenHeader, blockFree_setFree]
    rfl
  · rw [takenHeader, blockNext_setFree, blockNext_setSize, blockNext_setNext smallNext]
    exact linked

theorem blockNext_lt (memory : Memory) (block : Nat) : blockNext memory block < 2 ^ 32 :=
  Memory.word_lt memory _

theorem HeaderIs.setFree {block : Block} (header : HeaderIs stop memory address block)
    (value : UInt8) :
    HeaderIs stop (setFree memory address value) address ⟨block.size, decide (value ≠ 0)⟩ := by
  refine ⟨?_, blockFree_setFree value, ?_⟩
  · rw [blockSize_setFree, header.size]
  · rw [blockNext_setFree, header.next]
    rfl

theorem takeBlock_spec {block : Block} (header : HeaderIs stop memory address block)
    (size : Nat) (inside : address + block.extent ≤ stop) (small : stop ≤ 2 ^ 32) :
    Laid stop (takeBlock size address memory) address (carved size block) ∧
      ∀ first last, last ≤ address ∨ address + block.extent ≤ first →
        Memory.AgreeOn (takeBlock size address memory) memory first last := by
  have extent : block.extent = 12 + block.size := rfl
  by_cases splits : headerSize + heapAlign < block.size - size
  · generalize splitIs : address + headerSize + size = split
    have splitAt : address + 12 + size = split := splitIs
    -- the header of the rest is written first, then that of the block
    generalize restIs : freeHeader memory split
      (block.size - size - headerSize) (blockNext memory address) = rest
    have nextKept : blockNext (setFree (setSize memory split
        (block.size - size - headerSize)) split 1) address = blockNext memory address :=
      Memory.word_congr ((setFree_agreeOn _ _ (by omega)).trans (setSize_agreeOn _ _ (by omega)))
    have taken : takeBlock size address memory = takenHeader rest address size split := by
      rw [← restIs, ← nextKept, ← splitIs]
      simp only [takeBlock, header.size, if_pos splits]
      rfl
    have blocks : carved size block = [⟨size, false⟩, ⟨block.size - size - headerSize, true⟩] :=
      if_pos splits
    have restHeader : HeaderIs stop rest split ⟨block.size - size - headerSize, true⟩ := by
      rw [← restIs]
      refine freeHeader_headerIs memory ?_ (blockNext_lt memory address) ?_
      · simp only [headerSize]
        omega
      · rw [header.next]
        congr 1
        simp only [headerSize]
        omega
    rw [taken, blocks]
    refine ⟨⟨takenHeader_headerIs rest (by omega) (by omega) ?_, ?_, trivial⟩, ?_⟩
    · rw [← Nat.add_assoc, splitIs, link_of_lt (by omega)]
    · have start : address + Block.extent ⟨size, false⟩ = split := by
        rw [← splitIs, Nat.add_assoc]
        rfl
      rw [start]
      exact restHeader.congr (takenHeader_agreeOn rest size split
        (by simp only [headerSize]; omega))
    · intro first last apart
      rw [← restIs]
      exact (takenHeader_agreeOn _ _ _ (by simp only [headerSize]; omega)).trans
        (freeHeader_agreeOn _ _ _ (by simp only [headerSize]; omega))
  · have taken : takeBlock size address memory = setFree memory address 0 := by
      simp only [takeBlock, header.size, if_neg splits]
    have blocks : carved size block = [⟨block.size, false⟩] := if_neg splits
    rw [taken, blocks]
    refine ⟨⟨header.setFree 0, trivial⟩, ?_⟩
    intro first last apart
    exact setFree_agreeOn memory 0 (by simp only [headerSize]; omega)

/-- What `heap_coalesce` makes of a list of blocks. -/
def coalesced : List Block → List Block
  | [] => []
  | [block] => [block]
  | block :: next :: rest =>
    if block.free ∧ next.free then
      coalesced (⟨block.size + (headerSize + next.size), true⟩ :: rest)
    else
      block :: coalesced (next :: rest)
termination_by blocks => blocks.length

theorem used_coalesced (address : Nat) (blocks : List Block) :
    used address (coalesced blocks) = used address blocks := by
  fun_induction coalesced blocks generalizing address with
  | case1 => rfl
  | case2 => rfl
  | case3 block next rest bothFree ih =>
    rw [ih]
    simp only [used, bothFree.1, bothFree.2, if_true, Block.extent]
    congr 1
    omega
  | case4 block next rest notBoth ih =>
    rw [used, ih]
    conv_rhs => rw [used]

theorem extents_coalesced (blocks : List Block) : extents (coalesced blocks) = extents blocks := by
  fun_induction coalesced blocks with
  | case1 => rfl
  | case2 => rfl
  | case3 block next rest bothFree ih =>
    rw [ih]
    simp only [extents_cons, Block.extent]
    omega
  | case4 block next rest notBoth ih =>
    rw [extents_cons, ih]
    rfl

/-- No two neighbours are both free. -/
def Settled (blocks : List Block) : Prop :=
  blocks.IsChain fun block next => ¬ (block.free = true ∧ next.free = true)

theorem coalesced_head? (blocks : List Block) :
    (coalesced blocks).head?.map Block.free = blocks.head?.map Block.free := by
  fun_induction coalesced blocks with
  | case1 => rfl
  | case2 => rfl
  | case3 block next rest bothFree ih =>
    rw [ih]
    simp [bothFree.1]
  | case4 block next rest notBoth ih => rfl

theorem settled_coalesced (blocks : List Block) : Settled (coalesced blocks) := by
  unfold Settled
  fun_induction coalesced blocks with
  | case1 => exact List.isChain_nil
  | case2 => exact List.isChain_singleton _
  | case3 block next rest bothFree ih =>
    exact ih
  | case4 block next rest notBoth ih =>
    have sameFlag := coalesced_head? (next :: rest)
    rw [List.isChain_cons]
    refine ⟨?_, ih⟩
    intro following isHead
    have flag : following.free = next.free := by
      rw [Option.mem_def.mp isHead] at sameFlag
      simpa using sameFlag
    rw [flag]
    exact notBoth

theorem joined_headerIs {block next : Block} (header : HeaderIs stop memory address block)
    (headerNext : HeaderIs stop memory (address + block.extent) next) (isFree : block.free = true)
    (inside : address + block.extent + next.extent ≤ stop) (small : stop ≤ 2 ^ 32) : HeaderIs stop
      (setNext (setSize memory address (block.size + (headerSize + next.size)))
        address (blockNext memory (address + block.extent)))
      address ⟨block.size + (headerSize + next.size), true⟩ := by
  have extent : block.extent = 12 + block.size := rfl
  have extentNext : next.extent = 12 + next.size := rfl
  refine ⟨?_, ?_, ?_⟩
  · rw [blockSize_setNext, blockSize_setSize]
    simp only [headerSize]
    omega
  · rw [blockFree_setNext, blockFree_setSize, header.free, isFree]
  · rw [blockNext_setNext (blockNext_lt memory _), headerNext.next]
    congr 1
    simp only [Block.extent, headerSize]
    omega

/-- `heap_coalesce` joins the free neighbours from a block on; it writes only
from there on, and no payload of a used block. -/
theorem coalesceLoop_spec (small : stop ≤ 2 ^ 32) :
    ∀ (guard address : Nat) (memory : Memory) (block : Block)
      (rest : List Block), 0 < address → rest.length ≤ guard →
      Laid stop memory address (block :: rest) → address + extents (block :: rest) = stop →
      Laid stop (coalesceLoop guard address memory) address (coalesced (block :: rest)) ∧
        Memory.AgreeOn (coalesceLoop guard address memory) memory 0 address ∧
        ∀ payload ∈ used address (block :: rest),
          Memory.AgreeOn (coalesceLoop guard address memory) memory payload.1
            (payload.1 + payload.2) := by
  intro guard
  induction guard with
  | zero =>
    intro address memory block rest _ few laid _
    have alone : rest = [] := List.eq_nil_of_length_eq_zero (by omega)
    subst alone
    simp only [coalesced]
    exact ⟨laid, fun _ _ _ => rfl, fun _ _ _ _ _ => rfl⟩
  | succ guard ih =>
    intro address memory block rest positive few laid ends
    have extent : block.extent = 12 + block.size := rfl
    cases rest with
    | nil =>
      have last : blockNext memory address = 0 := by
        rw [laid.1.next]
        simp only [extents_cons, extents_nil, Nat.add_zero] at ends
        rw [ends, link_self]
      rw [coalesceLoop]
      simp only [if_pos (Or.inr last : address = 0 ∨ _)]
      simp only [coalesced]
      exact ⟨laid, fun _ _ _ => rfl, fun _ _ _ _ _ => rfl⟩
    | cons next rest =>
      have extentNext : next.extent = 12 + next.size := rfl
      have following : blockNext memory address = address + block.extent := by
        rw [laid.1.next, link_of_lt]
        simp only [extents_cons] at ends
        omega
      simp only [extents_cons] at ends
      rw [coalesceLoop]
      simp only [following, laid.1.free, laid.2.1.free, laid.1.size, laid.2.1.size]
      rw [if_neg (by omega)]
      by_cases bothFree : block.free = true ∧ next.free = true
      · have behind : blockNext (setSize memory address (block.size + (headerSize + next.size)))
              (address + block.extent) = blockNext memory (address + block.extent) :=
          Memory.word_congr (setSize_agreeOn memory _ (by simp only [headerSize]; omega))
        rw [if_pos bothFree, blockNext_setSize, following, behind]
        generalize joinedIs : setNext (setSize memory address
          (block.size + (headerSize + next.size))) address
            (blockNext memory (address + block.extent)) = joined
        have outside : ∀ first last, last ≤ address ∨ address + headerSize ≤ first →
              Memory.AgreeOn joined memory first last := by
          intro first last apart
          rw [← joinedIs]
          exact (setNext_agreeOn _ _ (by omega)).trans (setSize_agreeOn _ _ (by omega))
        have merged : Block.extent ⟨block.size + (headerSize + next.size), true⟩ =
              block.extent + next.extent := by
          simp only [Block.extent, headerSize]
          omega
        have laidJoined : Laid stop joined address
            (⟨block.size + (headerSize + next.size), true⟩ :: rest) := by
          refine ⟨?_, ?_⟩
          · rw [← joinedIs]
            exact joined_headerIs laid.1 laid.2.1 bothFree.1 (by omega) small
          · rw [merged, ← Nat.add_assoc]
            exact laid.2.2.congr (outside _ _ (by simp only [headerSize]; omega))
        rw [List.length_cons] at few
        obtain ⟨laidLater, below, kept⟩ := ih address
          joined _ rest positive (by omega) laidJoined (by rw [extents_cons, merged]; omega)
        have sameUsed : used address (⟨block.size + (headerSize + next.size), true⟩ :: rest) =
              used address (block :: next :: rest) := by
          simp only [used, bothFree.1, bothFree.2, if_true, merged, Nat.add_assoc]
        rw [coalesced, if_pos bothFree]
        refine ⟨laidLater, below.trans (outside _ _ (by omega)), ?_⟩
        intro payload member
        have bounds := used_bounds member
        exact (kept payload (sameUsed ▸ member)).trans (outside _ _ (by omega))
      · rw [if_neg bothFree]
        rw [List.length_cons] at few
        obtain ⟨laidLater, below, kept⟩ := ih
          (address + block.extent) memory next rest (by omega) (by omega)
          laid.2 (by simp only [extents_cons]; omega)
        rw [coalesced, if_neg bothFree]
        refine ⟨⟨laid.1.congr (below.mono (by omega) ?_), laidLater⟩,
          below.mono (Nat.le_refl _) (by omega), ?_⟩
        · simp only [headerSize]
          omega
        · intro payload member
          rw [used] at member
          split at member
          · exact kept payload member
          · rcases List.mem_cons.mp member with isFirst | isLater
            · rw [isFirst]
              exact below.mono (Nat.zero_le _) (by simp only [headerSize]; omega)
            · exact kept payload isLater

end KnitOS.Heap
