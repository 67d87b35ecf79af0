import KnitOS.Fs.Flat
import Mathlib.Order.Bounds.Basic

/-!
# What the bitmap functions do

The results are for file systems with the layout `fs_init` gives to a new
disk.  There all sector numbers fit 32 bits, and allocating or freeing a run
sets or clears exactly its bits.
-/

namespace KnitOS.Fs

open Lib Lib.Program Storage

def BootSector.withInodeCount (boot : BootSector) (inodeCount : Nat) : BootSector :=
  { boot with inodeCount := inodeCount }

/-- A mounted file system with the layout of a new disk. -/
structure Formatted (fs : FsState) : Prop where
  boot : fs.boot = (formatBoot fs.boot.totalSectors).withInodeCount fs.boot.inodeCount
  positive : 0 < fs.boot.totalSectors
  bounded : fs.boot.totalSectors ≤ 4194304
  initialized : fs.initialized = true
  bitmap : fs.bitmap.isSome = true
  bitmapSectors : fs.bitmapSectors = (fs.boot.freeBitmapSize + sectorSize - 1) / sectorSize

/-- The first sector that can be allocated. -/
def FsState.base (fs : FsState) : Nat := fs.boot.allocBase

namespace Formatted

variable {fs : FsState} (formatted : Formatted fs)

include formatted

theorem freeBitmapSize : fs.boot.freeBitmapSize = (fs.boot.totalSectors + 7) / 8 := by
  have positive := formatted.positive
  have bounded := formatted.bounded
  have nonzero : fs.boot.totalSectors ≠ 0 := by omega
  rw [formatted.boot]
  simp only [BootSector.withInodeCount, formatBoot, if_neg nonzero]
  rw [u32_of_lt (by omega)]

theorem bitmapSectors_eq : fs.bitmapSectors = ((fs.boot.totalSectors + 7) / 8 + 511) / 512 := by
  rw [formatted.bitmapSectors, formatted.freeBitmapSize]
  rfl

theorem inodeTableSector : fs.boot.inodeTableSector = 1 := by
  rw [formatted.boot]
  rfl

theorem inodeSectors : fs.boot.inodeSectors = 272 := by
  have slots : fs.boot.inodeSlots = maxInodes := by
    rw [formatted.boot]
    rfl
  unfold BootSector.inodeSectors
  rw [slots]
  rfl

theorem freeBitmapSector : fs.boot.freeBitmapSector = 273 := by
  rw [formatted.boot]
  rfl

theorem dataStartSector : fs.boot.dataStartSector = 273 + fs.bitmapSectors := by
  have start : fs.boot.dataStartSector =
      273 + (fs.boot.freeBitmapSize + sectorSize - 1) / sectorSize := by
    rw [formatted.boot]
    rfl
  rw [start, formatted.bitmapSectors]

theorem logStartSector : fs.boot.logStartSector = fs.boot.dataStartSector := by
  rw [formatted.boot]
  rfl

theorem logSize : fs.boot.logSize = 64 := by
  rw [formatted.boot]
  rfl

theorem logNext : fs.boot.logNext = 0 := by
  rw [formatted.boot]
  rfl

theorem bitmapSectors_bounds : 1 ≤ fs.bitmapSectors ∧ fs.bitmapSectors ≤ 1024 := by
  have positive := formatted.positive
  have bounded := formatted.bounded
  have sectors := formatted.bitmapSectors_eq
  omega

theorem base_eq : fs.base = 337 + fs.bitmapSectors := by
  have bounds := formatted.bitmapSectors_bounds
  have start := formatted.dataStartSector
  unfold FsState.base BootSector.allocBase
  dsimp only
  rw [formatted.logStartSector, formatted.logSize,
    formatted.inodeTableSector, formatted.inodeSectors, u32_of_lt (by omega), u32_of_lt (by omega),
    if_pos (by omega), start]
  omega

/-- The superblock may differ in its count of inodes. -/
theorem of_same {fs' : FsState} (boot : fs'.boot = fs.boot.withInodeCount fs'.boot.inodeCount)
    (initialized : fs'.initialized = fs.initialized)
    (bitmap : fs'.bitmap.isSome = fs.bitmap.isSome)
    (bitmapSectors : fs'.bitmapSectors = fs.bitmapSectors) : Formatted fs' := by
  have total : fs'.boot.totalSectors = fs.boot.totalSectors := by
    rw [boot]
    rfl
  refine ⟨?_, ?_, ?_, ?_, ?_, ?_⟩
  · rw [total]
    calc fs'.boot
        = fs.boot.withInodeCount fs'.boot.inodeCount := boot
      _ = ((formatBoot fs.boot.totalSectors).withInodeCount
            fs.boot.inodeCount).withInodeCount fs'.boot.inodeCount :=
          congrArg (fun before => before.withInodeCount fs'.boot.inodeCount) formatted.boot
      _ = (formatBoot fs.boot.totalSectors).withInodeCount
            fs'.boot.inodeCount := rfl
  · rw [total]
    exact formatted.positive
  · rw [total]
    exact formatted.bounded
  · rw [initialized]
    exact formatted.initialized
  · rw [bitmap]
    exact formatted.bitmap
  · rw [bitmapSectors, boot]
    exact formatted.bitmapSectors

end Formatted

/-- Give the bits of some sectors a value. -/
def assignBits (sectors : List Nat) (value : Bool) (fs : FsState) : FsState :=
  { fs with
    bitmap := fs.bitmap.map fun bits sector =>
      if sector ∈ sectors then value else bits sector }

section

variable (sectors : List Nat) (value : Bool) (fs : FsState)

@[simp]
theorem assignBits_boot : (assignBits sectors value fs).boot = fs.boot := rfl

@[simp]
theorem assignBits_inodes : (assignBits sectors value fs).inodes = fs.inodes := rfl

@[simp]
theorem assignBits_kernel : (assignBits sectors value fs).kernel = fs.kernel := rfl

@[simp]
theorem assignBits_base : (assignBits sectors value fs).base = fs.base := rfl

theorem assignBits_nil : assignBits [] value fs = fs := by
  cases fs with
  | mk boot inodes initialized bitmap bitmapSectors kernel =>
    cases bitmap with
    | none => rfl
    | some bits => simp [assignBits]

theorem assignBits_append (more : List Nat) : assignBits more value (assignBits sectors value fs) =
    assignBits (sectors ++ more) value fs := by
  cases fs with
  | mk boot inodes initialized bitmap bitmapSectors kernel =>
    cases bitmap with
    | none => rfl
    | some bits =>
      simp only [assignBits, Option.map_some]
      congr 2
      funext sector
      by_cases later : sector ∈ more
      · simp [later]
      · simp [later]

theorem fsBitmapTest_assignBits {fs : FsState} (bitmap : fs.bitmap.isSome = true) (sector : Nat) :
    fsBitmapTest (assignBits sectors value fs) sector =
      if sector < fs.boot.totalSectors ∧ sector ∈ sectors then value
      else fsBitmapTest fs sector := by
  obtain ⟨bits, bitsEq⟩ := Option.isSome_iff_exists.mp bitmap
  simp only [fsBitmapTest, assignBits, bitsEq, Option.map_some]
  by_cases inside : sector < fs.boot.totalSectors
  · rw [if_neg (Nat.not_le.mpr inside), if_neg (Nat.not_le.mpr inside)]
    simp [inside]
  · rw [if_pos (Nat.not_lt.mp inside), if_pos (Nat.not_lt.mp inside)]
    simp [inside]

theorem Formatted.assignBits {fs : FsState} (formatted : Formatted fs) :
    Formatted (assignBits sectors value fs) := by
  refine ⟨formatted.boot, formatted.positive, formatted.bounded,
    formatted.initialized, ?_, formatted.bitmapSectors⟩
  simpa [Fs.assignBits] using formatted.bitmap

end

variable {fs : FsState}

theorem fsBitmapSet_eq {sector : Nat} (value : Bool) (inside : sector < fs.boot.totalSectors) :
    fsBitmapSet sector value fs = assignBits [sector] value fs := by
  cases fs with
  | mk boot inodes initialized bitmap bitmapSectors kernel =>
    cases bitmap with
    | none => rfl
    | some bits =>
      have notOutside : ¬ boot.totalSectors ≤ sector := Nat.not_le.mpr inside
      simp only [fsBitmapSet, notOutside, if_false, assignBits, Option.map_some, List.mem_singleton]
      congr 2
      funext other
      by_cases same : other = sector
      · simp [same]
      · simp [same]

/-- A loop over a run of sectors, whose rounds each give one bit the value. -/
theorem foldl_assignBits {start : Nat} {value : Bool} (round : FsState → Nat → FsState)
    (small : fs.boot.totalSectors < 4294967296)
    (assigns : ∀ {fs : FsState} {sector : Nat}, sector < fs.boot.totalSectors →
      round fs sector = assignBits [sector] value fs) :
    ∀ {count : Nat}, start + count ≤ fs.boot.totalSectors →
      (List.range count).foldl (fun fs index => round fs (u32 (start + index))) fs =
        assignBits (List.range' start count) value fs := by
  intro count
  induction count with
  | zero =>
    intro _
    exact (assignBits_nil value fs).symm
  | succ count ih =>
    intro inside
    rw [List.range_succ, List.foldl_append, ih (by omega), List.foldl_cons,
      List.foldl_nil, u32_of_lt (by omega)]
    have lastInside : start + count <
          (assignBits (List.range' start count) value fs).boot.totalSectors := by
      rw [assignBits_boot]
      omega
    rw [assigns lastInside, assignBits_append, List.range'_1_concat]

theorem markBlocks_eq {start : Nat} (small : fs.boot.totalSectors < 4294967296) :
    ∀ {count : Nat}, start + count ≤ fs.boot.totalSectors → markBlocks start count fs =
        assignBits (List.range' start count) true fs :=
  foldl_assignBits (fun fs sector => fsBitmapSet sector true fs) small (fsBitmapSet_eq true)

theorem assignBits_of_clear {sector : Nat} (inside : sector < fs.boot.totalSectors)
    (clear : fsBitmapTest fs sector = false) : assignBits [sector] false fs = fs := by
  cases fs with
  | mk boot inodes initialized bitmap bitmapSectors kernel =>
    cases bitmap with
    | none => rfl
    | some bits =>
      have notOutside : ¬ boot.totalSectors ≤ sector := Nat.not_le.mpr inside
      simp only [fsBitmapTest, notOutside, if_false] at clear
      simp only [assignBits, Option.map_some, List.mem_singleton]
      congr 2
      funext other
      by_cases same : other = sector
      · simp [same, clear]
      · simp [same]

theorem freeBlocks_eq {fs : FsState} {start : Nat} (small : fs.boot.totalSectors < 4294967296) :
    ∀ {count : Nat}, start + count ≤ fs.boot.totalSectors → freeBlocks start count fs =
        assignBits (List.range' start count) false fs := by
  refine foldl_assignBits (fun fs sector =>
    if fsBitmapTest fs sector then fsBitmapSet sector false fs else fs) small ?_
  intro fs sector inside
  split
  · exact fsBitmapSet_eq false inside
  · rename_i clear
    rw [Bool.not_eq_true] at clear
    exact (assignBits_of_clear inside clear).symm

variable {count : Nat}

theorem findFreeRun_spec {occupied : Nat → Bool} : ∀ (rounds run sector start : Nat),
    run < count → run ≤ sector → (∀ earlier, sector - run ≤ earlier → earlier < sector →
      occupied earlier = false) → findFreeRun occupied count run sector rounds = some start →
      sector - run ≤ start ∧ start + count ≤ sector + rounds ∧
        ∀ other ∈ List.range' start count, occupied other = false := by
  intro rounds
  induction rounds with
  | zero =>
    intro run sector start _ _ _ found
    simp [findFreeRun] at found
  | succ rounds ih =>
    intro run sector start short within free found
    rw [findFreeRun] at found
    by_cases busy : occupied sector = true
    · rw [if_pos busy] at found
      have nothing : ∀ earlier, sector + 1 - 0 ≤ earlier →
          earlier < sector + 1 → occupied earlier = false := by
        intro earlier above below
        omega
      obtain ⟨above, below, runFree⟩ := ih 0 (sector + 1) start (by omega) (by omega) nothing found
      exact ⟨by omega, by omega, runFree⟩
    · rw [if_neg busy] at found
      rw [Bool.not_eq_true] at busy
      have extended : ∀ earlier, sector - run ≤ earlier →
          earlier < sector + 1 → occupied earlier = false := by
        intro earlier above below
        by_cases last : earlier = sector
        · rw [last]
          exact busy
        · exact free earlier above (by omega)
      by_cases enough : count ≤ run + 1
      · rw [if_pos enough] at found
        cases found
        refine ⟨by omega, by omega, ?_⟩
        intro other member
        rw [List.mem_range'_1] at member
        exact extended other (by omega) (by omega)
      · rw [if_neg enough] at found
        have shifted : ∀ earlier, sector + 1 - (run + 1) ≤ earlier →
            earlier < sector + 1 → occupied earlier = false := by
          intro earlier above below
          exact extended earlier (by omega) below
        obtain ⟨above, below, runFree⟩ :=
          ih (run + 1) (sector + 1) start (by omega) (by omega) shifted found
        exact ⟨by omega, by omega, runFree⟩

/-- No run of free sectors in the area is missed: the search stops at the
first one or before it. -/
theorem findFreeRun_first {occupied : Nat → Bool} {first : Nat}
    (free : ∀ other ∈ List.range' first count, occupied other = false) :
    ∀ (rounds run sector : Nat), run < count → run ≤ sector →
      sector - run ≤ first → first + count ≤ sector + rounds →
        ∃ start, findFreeRun occupied count run sector rounds = some start ∧ start ≤ first := by
  intro rounds
  induction rounds with
  | zero =>
    intro run sector short within above below
    omega
  | succ rounds ih =>
    intro run sector short within above below
    rw [findFreeRun]
    by_cases busy : occupied sector = true
    · have later : sector < first := by
        by_contra notLater
        -- the run has not ended before `sector`, so it would contain it
        have clear := free sector (List.mem_range'_1.mpr (by omega))
        rw [busy] at clear
        cases clear
      rw [if_pos busy]
      exact ih 0 (sector + 1) (by omega) (by omega) (by omega) (by omega)
    · rw [if_neg busy]
      by_cases enough : count ≤ run + 1
      · rw [if_pos enough]
        exact ⟨sector + 1 - count, rfl, by omega⟩
      · rw [if_neg enough]
        exact ih (run + 1) (sector + 1) (by omega) (by omega) (by omega) (by omega)

/-- A run of free sectors that `fs_alloc_blocks` may hand out. -/
def FreeRun (fs : FsState) (count start : Nat) : Prop :=
  fs.base ≤ start ∧ start + count ≤ fs.boot.totalSectors ∧
    ∀ sector ∈ List.range' start count, fsBitmapTest fs sector = false

theorem findFreeRun_isLeast (nonempty : count ≠ 0) {start : Nat}
    (found : findFreeRun (fsBitmapTest fs) count 0 fs.boot.allocBase
      (fs.boot.totalSectors - fs.boot.allocBase) = some start) :
    IsLeast {first | FreeRun fs count first} start := by
  have nothing : ∀ earlier, fs.boot.allocBase - 0 ≤ earlier →
      earlier < fs.boot.allocBase → fsBitmapTest fs earlier = false := by
    intro earlier above below
    omega
  obtain ⟨above, below, free⟩ := findFreeRun_spec _ 0 fs.boot.allocBase start (by omega) (by omega)
    nothing found
  have inside : start + count ≤ fs.boot.totalSectors := by
    by_contra beyond
    -- a free sector has a bit, so it lies below the end of the disk
    have lastFree := free (start + count - 1) (List.mem_range'_1.mpr (by omega))
    omega
  constructor
  · exact ⟨by unfold FsState.base; omega, inside, free⟩
  · intro other otherFree
    obtain ⟨otherAbove, otherBelow, otherClear⟩ := otherFree
    unfold FsState.base at otherAbove
    obtain ⟨first, foundFirst, early⟩ := findFreeRun_first otherClear
      (fs.boot.totalSectors - fs.boot.allocBase) 0 fs.boot.allocBase
      (by omega) (by omega) (by omega) (by omega)
    rw [found] at foundFirst
    cases foundFirst
    exact early

theorem not_freeRun_of_findFreeRun (nonempty : count ≠ 0)
    (missing : findFreeRun (fsBitmapTest fs) count 0 fs.boot.allocBase
      (fs.boot.totalSectors - fs.boot.allocBase) = none) (start : Nat) :
    ¬ FreeRun fs count start := by
  rintro ⟨above, below, clear⟩
  unfold FsState.base at above
  obtain ⟨first, found, _⟩ := findFreeRun_first clear (fs.boot.totalSectors - fs.boot.allocBase) 0
    fs.boot.allocBase (by omega) (by omega) (by omega) (by omega)
  rw [missing] at found
  cases found

/-- `fs_alloc_blocks` fails without an effect when there is no free run of
data sectors, and sets the bits of the first one otherwise. -/
theorem run_fsAllocBlocks {δ : Type} (device : Device δ DiskRequest (Option Sector))
    (bitmap : fs.bitmap.isSome = true) (small : fs.boot.totalSectors < 4294967296)
    (nonempty : count ≠ 0) (dev : δ) : ((∀ start, ¬ FreeRun fs count start) ∧
      (fsAllocBlocks count).run device fs dev = (none, fs, dev)) ∨
    ∃ start, IsLeast {first | FreeRun fs count first} start ∧
      (fsAllocBlocks count).run device fs dev =
        (some start, assignBits (List.range' start count) true fs, dev) := by
  unfold fsAllocBlocks
  rw [run_reads_bind, id, require_of ⟨bitmap, nonempty⟩, run_pure_bind]
  dsimp only
  cases found : findFreeRun (fsBitmapTest fs) count 0 fs.boot.allocBase
    (fs.boot.totalSectors - fs.boot.allocBase) with
  | none => exact Or.inl ⟨not_freeRun_of_findFreeRun nonempty found, rfl⟩
  | some start =>
    right
    have least := findFreeRun_isLeast nonempty found
    refine ⟨start, least, ?_⟩
    rw [← markBlocks_eq small least.1.2.1]
    rfl

theorem fsAllocBlocks_cases (formatted : Formatted fs) (nonempty : count ≠ 0)
    (flat : FlatDisk) :
    ((∀ start, ¬ FreeRun fs count start) ∧
      (fsAllocBlocks count).run flatDevice fs flat = (none, fs, flat)) ∨
    ∃ start, IsLeast {first | FreeRun fs count first} start ∧
      (fsAllocBlocks count).run flatDevice fs flat =
        (some start, assignBits (List.range' start count) true fs, flat) := by
  have bounded := formatted.bounded
  exact run_fsAllocBlocks flatDevice formatted.bitmap (by omega) nonempty flat

theorem fsAllocBlocks_spec (formatted : Formatted fs) (nonempty : count ≠ 0) (flat : FlatDisk) :
    (fsAllocBlocks count).run flatDevice fs flat = (none, fs, flat) ∨ ∃ start,
      (fsAllocBlocks count).run flatDevice fs flat =
        (some start, assignBits (List.range' start count) true fs, flat) ∧
      fs.base ≤ start ∧ start + count ≤ fs.boot.totalSectors ∧
      ∀ sector ∈ List.range' start count, fsBitmapTest fs sector = false := by
  rcases fsAllocBlocks_cases formatted nonempty flat with ⟨_, ran⟩ | ⟨start, least, ran⟩
  · exact Or.inl ran
  · exact Or.inr ⟨start, ran, least.1⟩

theorem assignBits_restore {sectors : List Nat}
    (inside : ∀ sector ∈ sectors, sector < fs.boot.totalSectors)
    (clear : ∀ sector ∈ sectors, fsBitmapTest fs sector = false) :
    assignBits sectors false (assignBits sectors true fs) = fs := by
  cases fs with
  | mk boot inodes initialized bitmap bitmapSectors kernel =>
    cases bitmap with
    | none => rfl
    | some bits =>
      simp only [assignBits, Option.map_some]
      congr 2
      funext sector
      by_cases member : sector ∈ sectors
      · have notOutside := Nat.not_le.mpr (inside sector member)
        have wasClear := clear sector member
        dsimp only at notOutside
        simp only [fsBitmapTest, notOutside, if_false] at wasClear
        simp [member, wasClear]
      · simp [member]

/-- Allocation is exact first fit: the call fails, without an effect, exactly
when there is no free run; otherwise it returns the start of the first one
and sets its bits and no others, and freeing the run undoes it. -/
theorem fsAllocBlocks_firstFit {δ : Type} (device : Device δ DiskRequest (Option Sector)) (dev : δ)
    {fs : FsState} {bits : Nat → Bool} (loaded : fs.bitmap = some bits)
    (word : fs.boot.totalSectors < 4294967296) {count : Nat} (positive : 0 < count) :
    (((fsAllocBlocks count).run device fs dev).1 = none ↔ ¬ ∃ start, FreeRun fs count start) ∧
    ((¬ ∃ start, FreeRun fs count start) →
      (fsAllocBlocks count).run device fs dev = (none, fs, dev)) ∧
    ∀ start, IsLeast {first | FreeRun fs count first} start →
      ∃ fs', (fsAllocBlocks count).run device fs dev = (some start, fs', dev) ∧ fs' = { fs with
          bitmap := some fun sector =>
            if sector ∈ List.range' start count then true
            else bits sector } ∧
        (fsFreeBlocks start count).run device fs' dev = (some (), fs, dev) := by
  have bitmap : fs.bitmap.isSome = true := by
    rw [loaded]
    rfl
  rcases run_fsAllocBlocks device bitmap word (by omega : count ≠ 0) dev with
    ⟨missing, ran⟩ | ⟨first, least, ran⟩
  · have noRun : ¬ ∃ start, FreeRun fs count start := by
      rintro ⟨start, free⟩
      exact missing start free
    refine ⟨by simp [ran, noRun], fun _ => ran, ?_⟩
    intro start startLeast
    exact absurd startLeast.1 (missing start)
  · have someRun : ∃ start, FreeRun fs count start := ⟨first, least.1⟩
    refine ⟨by simp [ran, someRun], fun noRun => absurd someRun noRun, ?_⟩
    intro start startLeast
    have same : start = first := startLeast.unique least
    subst same
    obtain ⟨above, below, clear⟩ := least.1
    refine ⟨_, ran, by simp [assignBits, loaded], ?_⟩
    have inside : ∀ sector ∈ List.range' start count, sector < fs.boot.totalSectors := by
      intro sector member
      have bounds := List.mem_range'_1.mp member
      omega
    have freed : freeBlocks start count (assignBits (List.range' start count) true fs) = fs := by
      rw [@freeBlocks_eq (assignBits (List.range' start count) true fs) start word count below]
      exact assignBits_restore inside clear
    unfold fsFreeBlocks
    rw [run_modify, freed]

/-- A new disk of 1024 sectors of which the first 400 are in use. -/
def partlyUsed : FsState where
  boot := formatBoot 1024
  inodes _ := Inode.zero
  initialized := true
  bitmap := some fun sector => decide (sector < 400)
  bitmapSectors := 1
  kernel := ⟨0, 0, 1024, fun _ => 0, fun _ _ => true, fun _ _ => 0, 0⟩

theorem fsAllocBlocks_firstFit_partlyUsed : IsLeast {first | FreeRun partlyUsed 2 first} 400 ∧
      ∃ fs', (fsAllocBlocks 2).run flatDevice partlyUsed .broken = (some 400, fs', .broken) ∧
        (fsFreeBlocks 400 2).run flatDevice fs' .broken = (some (), partlyUsed, .broken) := by
  have tested : ∀ sector, sector < 1024 →
      fsBitmapTest partlyUsed sector = decide (sector < 400) := by
    intro sector small
    have inside : ¬ (1024 : Nat) ≤ sector := by omega
    change (if (1024 : Nat) ≤ sector then true else decide (sector < 400)) = _
    rw [if_neg inside]
  have least : IsLeast {first | FreeRun partlyUsed 2 first} 400 := by
    constructor
    · exact ⟨by decide, by decide, by decide⟩
    · rintro first ⟨_, below, clear⟩
      have small : first + 2 ≤ 1024 := below
      have firstClear := clear first (by simp [List.mem_range'_1])
      rw [tested first (by omega)] at firstClear
      simpa using firstClear
  obtain ⟨fs', ran, _, freed⟩ := (@fsAllocBlocks_firstFit _ flatDevice .broken partlyUsed _ rfl
      (by decide) 2 (by decide)).2.2 400 least
  exact ⟨least, fs', ran, freed⟩

end KnitOS.Fs
