import KnitOS.Fs.FileArrays
import KnitOS.Fs.ExtentOrder

/-!
# Truncating exactly

`fs_index_truncate` does what it should if the number of sectors does not
overflow, if growing puts no run between the sectors of the file, and if
shrinking finds room for what it keeps.
-/

namespace KnitOS.Fs

open Lib.Program Storage

/-- The run that `inode_grow_sectors` takes from the bitmap: the first of the
longest free runs of at most `want` sectors. -/
def FirstFit (fs : FsState) (want start got : Nat) : Prop :=
  0 < got ∧ got ≤ want ∧ IsLeast {first | FreeRun fs got first} start ∧
    ∀ longer, got < longer → longer ≤ want → ∀ first, ¬ FreeRun fs longer first

theorem firstFit_of_run_allocUpTo {fs marked : FsState} {flat flat' : FlatDisk}
    (formatted : Formatted fs) {start got : Nat} :
    ∀ {want : Nat}, (allocUpTo want).run flatDevice fs flat = (some (start, got), marked, flat') →
      FirstFit fs want start got ∧ marked = assignBits (List.range' start got) true fs := by
  intro want
  induction want with
  | zero =>
    intro allocated
    cases allocated
  | succ want ih =>
    intro allocated
    rw [allocUpTo, run_attempt_bind] at allocated
    rcases fsAllocBlocks_cases formatted (Nat.succ_ne_zero want) flat with
      ⟨missing, failed⟩ | ⟨first, least, found⟩
    · rw [failed] at allocated
      obtain ⟨⟨positive, short, least, longest⟩, isMarked⟩ := ih allocated
      refine ⟨⟨positive, by omega, least, fun longer more fits => ?_⟩, isMarked⟩
      by_cases whole : longer = want + 1
      · rw [whole]
        exact missing
      · exact longest longer more (by omega)
    · rw [found] at allocated
      cases allocated
      exact ⟨⟨Nat.succ_pos want, le_rfl, least, fun longer more fits => by omega⟩, rfl⟩

/-- Every run that `inode_grow_sectors` takes for the file starts behind none
of its first sectors, but perhaps the last of these. -/
def GrowsInPlace (index needSecs keep : Nat) : Nat → Nat → FsState → (Nat → Sector) → Prop
  | 0, _, _, _ => True
  | rounds + 1, current, fs, disk =>
    current < needSecs → ∀ start got,
      FirstFit fs (min (needSecs - current) 8) start got →
      (∀ position sector,
        ((fs.inodes index).dataSectors disk)[position]? = some sector →
          position + 1 < keep → sector + 1 ≠ start) ∧
      ∀ fs' disk',
        (attachRun index start got).run flatDevice
            (assignBits (List.range' start got) true fs) (.running disk) =
          (some (), fs', .running disk') →
        GrowsInPlace index needSecs keep rounds (current + got) fs' disk'

variable {index keep : Nat}

theorem growsInPlace_of_short {needSecs : Nat} (short : keep ≤ 1) :
    ∀ (rounds current : Nat) (fs : FsState) (disk : Nat → Sector),
      GrowsInPlace index needSecs keep rounds current fs disk := by
  intro rounds
  induction rounds with
  | zero =>
    intro _ _ _
    trivial
  | succ rounds ih =>
    intro current fs disk _ start got _
    exact ⟨fun position sector _ inner => by omega, fun fs' disk' _ => ih _ fs' disk'⟩

theorem take_growLoop {needSecs : Nat} {held : List Nat} (inTable : index < maxInodes) :
    ∀ (rounds : Nat) {fs : FsState} {disk : Nat → Sector}, Consistent fs disk held →
      keep ≤ ((fs.inodes index).dataSectors disk).length → GrowsInPlace index needSecs keep rounds
        ((fs.inodes index).dataSectors disk).length fs disk → ∀ {outcome fs' disk'},
        (growLoop index needSecs rounds
            ((fs.inodes index).dataSectors disk).length).run flatDevice fs (.running disk) =
          (outcome, fs', .running disk') → ((fs'.inodes index).dataSectors disk').take keep =
          ((fs.inodes index).dataSectors disk).take keep := by
  intro rounds
  induction rounds with
  | zero =>
    intro fs disk _ _ _ outcome fs' disk' looped
    cases looped
    rfl
  | succ rounds ih =>
    intro fs disk consistent short inPlace outcome fs' disk' looped
    rw [growLoop] at looped
    by_cases more : ((fs.inodes index).dataSectors disk).length < needSecs
    · rw [if_pos more] at looped
      rcases run_growRound consistent inTable
        (min (needSecs - ((fs.inodes index).dataSectors disk).length) 8) with failed |
        ⟨start, got, marked, middle, middleDisk, allocated, ran, added, _, _,
          positive, _, step, attached⟩
      · rw [run_bind_of_none failed] at looped
        cases looped
        rfl
      · obtain ⟨fit, isMarked⟩ := firstFit_of_run_allocUpTo consistent.formatted allocated
        rw [isMarked] at ran
        obtain ⟨apart, later⟩ := inPlace more start got fit
        have longer := attached.length_eq
        rw [run_bind_of_some added, ← longer] at looped
        have inPlaceLater := later middle middleDisk ran
        rw [← longer] at inPlaceLater
        rw [ih step.consistent (by omega) inPlaceLater
          looped, attached.take_eq positive short apart]
    · rw [if_neg more] at looped
      cases looped
      rfl

/-- The number of sectors of the bytes of a file. -/
def keptSectors (fs : FsState) (index : Nat) : Nat :=
  ((fs.inodes index).sizeBytes + 511) / 512

/-- `inode_grow_sectors` attaches a run to the file, whether or not it finds all
the sectors it needs. -/
def Attaches (index needSecs : Nat) (fs : FsState) (disk : Nat → Sector) : Prop :=
  ∃ got fs' disk',
    (growRound index (min (needSecs - ((fs.inodes index).dataSectors disk).length) 8)).run
        flatDevice fs (.running disk) =
      (some got, fs', .running disk')

/-- The condition for a truncation that keeps what it should.  A file whose size
is more than its sectors hold is a symbolic link with its target in the inode; it
may not get a run. -/
structure TruncatesCleanly (index newSize : Nat) (fs : FsState) (disk : Nat → Sector) : Prop where
  small : newSize + 511 < 2 ^ 32
  grows : ((fs.inodes index).dataSectors disk).length < sectorsFor newSize →
    (Attaches index (sectorsFor newSize) fs disk →
      (fs.inodes index).sizeBytes ≤ 512 * ((fs.inodes index).dataSectors disk).length) ∧
    GrowsInPlace index (sectorsFor newSize) (keptSectors fs index)
      (sectorsFor newSize) ((fs.inodes index).dataSectors disk).length fs disk
  shrinks : 0 < sectorsFor newSize →
    sectorsFor newSize < ((fs.inodes index).dataSectors disk).length →
    fs.grants (u32 (sectorsFor newSize * sectorSize)) →
      Placeable index (sectorsFor newSize) (clearedState fs.ask disk index) disk

/-- What `fs_index_truncate` should leave. -/
def TruncatedExactly (index newSize : Nat) (fs : FsState)
    (disk : Nat → Sector) (outcome : Option Unit) (fs' : FsState) (disk' : Nat → Sector) : Prop :=
  match outcome with
  | some () =>
    (fs'.inodes index).sizeBytes = newSize ∧
    (∃ count, sectorCountOf (fs'.inodes index) fs' disk' = some count ∧
      newSize ≤ count * 512) ∧
    (fileBytes fs' disk' index).take
        (min (fs.inodes index).sizeBytes newSize) =
      (fileBytes fs disk index).take
        (min (fs.inodes index).sizeBytes newSize)
  | none =>
    (fs'.inodes index).sizeBytes = (fs.inodes index).sizeBytes ∧
    fileBytes fs' disk' index = fileBytes fs disk index

/-- The first bytes of two states of a file. -/
def SameStart (index size : Nat) (fs : FsState) (disk : Nat → Sector)
    (fs' : FsState) (disk' : Nat → Sector) : Prop :=
  ∀ position, position < size →
    contentAt (fileBlocks fs' disk' index) position =
      contentAt (fileBlocks fs disk index) position

variable {disk disk' : Nat → Sector} {fs fs' : FsState}

theorem SameStart.of_take {size : Nat} (same : (fileBlocks fs' disk' index).take keep =
      (fileBlocks fs disk index).take keep) (inside : size ≤ 512 * keep) :
    SameStart index size fs disk fs' disk' := by
  intro position below
  rw [← contentAt_take (fileBlocks fs' disk' index) (by omega : position < 512 * keep),
    ← contentAt_take (fileBlocks fs disk index) (by omega : position < 512 * keep), same]

theorem SameStart.take_fileBytes {size : Nat} (same : SameStart index size fs disk fs' disk')
    (readable : size ≤ readableSize fs disk index)
    (readable' : size ≤ readableSize fs' disk' index) : (fileBytes fs' disk' index).take size =
      (fileBytes fs disk index).take size := by
  unfold fileBytes
  rw [← List.map_take, ← List.map_take, List.take_range, List.take_range,
    Nat.min_eq_left readable, Nat.min_eq_left readable']
  refine List.map_congr_left fun position member => ?_
  exact same position (List.mem_range.mp member)

section

variable {fs : FsState} {disk : Nat → Sector} {held : List Nat}
  {index newSize : Nat}

/-- What the change of the sectors leaves of the bytes. -/
structure KeepsBytes (index newSize : Nat) (fs : FsState)
    (disk : Nat → Sector) (outcome : Option Unit) (middle : FsState)
    (middleDisk : Nat → Sector) : Prop where
  length : outcome = some () →
    ((middle.inodes index).dataSectors middleDisk).length = sectorsFor newSize
  held : outcome = some () →
    min (fs.inodes index).sizeBytes newSize ≤ 512 * ((fs.inodes index).dataSectors disk).length
  start : outcome = some () →
    SameStart index (min (fs.inodes index).sizeBytes newSize) fs disk middle middleDisk
  failed : outcome = none → (middle.inodes index).sizeBytes = (fs.inodes index).sizeBytes ∧
      fileBytes middle middleDisk index = fileBytes fs disk index

variable (consistent : Consistent fs disk held) (inTable : index < maxInodes)

include consistent inTable

/-- Without a run for the first round the call fails and changes nothing. -/
theorem Consistent.keepsBytes_grow_refused
    (short : ((fs.inodes index).dataSectors disk).length < sectorsFor newSize)
    (refused : ¬ Attaches index (sectorsFor newSize) fs disk) :
    Leaves (inodeGrowSectors index (sectorsFor newSize)) fs disk fun outcome middle middleDisk =>
        Rebuilt index fs disk held middle middleDisk ∧
          KeepsBytes index newSize fs disk outcome middle middleDisk := by
  have counted := (consistent.mappable inTable).run_inodeSectorCount consistent.formatted
  rcases run_growRound consistent inTable
    (min (sectorsFor newSize - ((fs.inodes index).dataSectors disk).length) 8) with failed |
    ⟨_, got, _, middle, middleDisk, _, _, added, _⟩
  · have failing : (none : Option Unit) ≠ some () := (Option.some_ne_none ()).symm
    refine ⟨none, fs, disk, ?_, Rebuilt.refl consistent index,
      fun done => absurd done failing, fun done => absurd done failing,
      fun done => absurd done failing, fun _ => ⟨rfl, rfl⟩⟩
    obtain ⟨rounds, isSucc⟩ := Nat.exists_eq_succ_of_ne_zero (Nat.ne_zero_of_lt short)
    rw [inodeGrowSectors, run_inodeAt_bind, run_bind_of_some counted]
    rw [isSucc] at short failed ⊢
    rw [growLoop, if_pos short, run_bind_of_none failed]
  · exact absurd ⟨got, middle, middleDisk, added⟩ refused

theorem Consistent.keepsBytes_grow
    (short : ((fs.inodes index).dataSectors disk).length < sectorsFor newSize)
    (room : (fs.inodes index).sizeBytes ≤ 512 * ((fs.inodes index).dataSectors disk).length)
    (inPlace : GrowsInPlace index (sectorsFor newSize) (keptSectors fs index)
      (sectorsFor newSize) ((fs.inodes index).dataSectors disk).length fs disk) :
    Leaves (inodeGrowSectors index (sectorsFor newSize)) fs disk fun outcome middle middleDisk =>
        Rebuilt index fs disk held middle middleDisk ∧
          KeepsBytes index newSize fs disk outcome middle middleDisk := by
  obtain ⟨outcome, middle, middleDisk, grew, step, extended, reached⟩ :=
    run_inodeGrowSectors consistent inTable (sectorsFor newSize)
  have rebuilt := step.rebuilt consistent.owned inTable
  have counted := (consistent.mappable inTable).run_inodeSectorCount consistent.formatted
  have looped := grew
  rw [inodeGrowSectors, run_inodeAt_bind, run_bind_of_some counted] at looped
  have keepShort : keptSectors fs index ≤ ((fs.inodes index).dataSectors disk).length := by
    unfold keptSectors
    omega
  have sameSectors := take_growLoop inTable _ consistent keepShort inPlace looped
  have sameBlocks : (fileBlocks middle middleDisk index).take (keptSectors fs index) =
        (fileBlocks fs disk index).take (keptSectors fs index) := by
    have blocks : fileBlocks middle middleDisk index =
        ((middle.inodes index).dataSectors middleDisk).map disk :=
        List.map_congr_left (step.data_kept inTable)
    rw [blocks, fileBlocks, ← List.map_take, ← List.map_take, sameSectors]
  have sameStart : SameStart index (fs.inodes index).sizeBytes fs disk middle middleDisk :=
    SameStart.of_take sameBlocks (by unfold keptSectors; omega)
  have sameSize : (middle.inodes index).sizeBytes = (fs.inodes index).sizeBytes := by
    have cleared := congrArg Inode.sizeBytes rebuilt.inode
    exact cleared
  have longer := extended.length_le
  refine ⟨outcome, middle, middleDisk, grew, rebuilt, ?_, fun _ => ?_, ?_, ?_⟩
  · intro succeeded
    rw [reached succeeded]
    omega
  · omega
  · intro _ position below
    exact sameStart position (by omega)
  · intro _
    have readable : readableSize fs disk index = (fs.inodes index).sizeBytes := Nat.min_eq_left room
    have readable' : readableSize middle middleDisk index = (fs.inodes index).sizeBytes := by
      unfold readableSize
      rw [sameSize]
      exact Nat.min_eq_left (by change _ ≤ 512 * _; omega)
    have taken := sameStart.take_fileBytes readable.ge readable'.ge
    refine ⟨sameSize, ?_⟩
    rwa [List.take_of_length_le (by rw [length_fileBytes, readable']),
      List.take_of_length_le (by rw [length_fileBytes, readable])] at taken

theorem Consistent.keepsBytes_shrink (small : newSize + 511 < 2 ^ 32)
    (long : sectorsFor newSize < ((fs.inodes index).dataSectors disk).length)
    (placeable : fs.grants (u32 (sectorsFor newSize * sectorSize)) →
      Placeable index (sectorsFor newSize) (clearedState fs.ask disk index) disk) :
    Leaves (inodeShrinkTo index (sectorsFor newSize)) fs disk fun outcome middle middleDisk =>
        Rebuilt index fs disk held middle middleDisk ∧
          KeepsBytes index newSize fs disk outcome middle middleDisk := by
  obtain ⟨outcome, middle, middleDisk, shrunk, rebuilt, contents, early⟩ :=
    run_inodeShrinkTo consistent inTable (sectorsFor newSize)
  have need := sectorsFor_eq small
  refine ⟨outcome, middle, middleDisk, shrunk, rebuilt, ?_, fun _ => ?_, ?_, ?_⟩
  · intro succeeded
    have lengths := congrArg List.length (contents succeeded)
    rw [List.length_take] at lengths
    unfold fileBlocks at lengths
    rw [List.length_map, List.length_map] at lengths
    omega
  · omega
  · intro succeeded
    refine SameStart.of_take (by rw [contents succeeded, List.take_take, Nat.min_self])
      (by omega : _ ≤ 512 * sectorsFor newSize)
  · intro failed
    obtain ⟨_, sameFs, sameDisk⟩ := early placeable failed
    rw [sameFs, sameDisk]
    exact ⟨rfl, rfl⟩

theorem TruncatesCleanly.leaves_resizeTo (clean : TruncatesCleanly index newSize fs disk) :
    Leaves (resizeTo index (sectorsFor newSize) ((fs.inodes index).dataSectors disk).length) fs disk
      fun outcome middle middleDisk =>
        Rebuilt index fs disk held middle middleDisk ∧
          KeepsBytes index newSize fs disk outcome middle middleDisk := by
  unfold resizeTo
  apply yields_ite
  · intro short
    obtain ⟨room, inPlace⟩ := clean.grows short
    by_cases attaches : Attaches index (sectorsFor newSize) fs disk
    · exact consistent.keepsBytes_grow inTable short (room attaches) inPlace
    · exact consistent.keepsBytes_grow_refused inTable short attaches
  · intro notShort
    apply yields_ite
    · intro long
      apply consistent.keepsBytes_shrink inTable clean.small long
      intro granted
      have positive : 0 < sectorsFor newSize := by
        by_contra zero
        have isZero : sectorsFor newSize = 0 := by omega
        rw [isZero] at granted
        exact absurd granted.1 (by decide)
      exact clean.shrinks positive long granted
    · intro notLong
      have need := sectorsFor_eq clean.small
      apply yields_pure
      exact ⟨Rebuilt.refl consistent index, fun _ => by omega, fun _ => by omega,
        fun _ _ _ => rfl, nofun⟩

end

/-- Under the condition, truncating is exact on success and changes nothing on
failure. -/
theorem fsIndexTruncate_exact {fs : FsState} {disk : Nat → Sector}
    {held : List Nat} {index newSize : Nat} (consistent : Consistent fs disk held)
    (clean : fs.Writable index → TruncatesCleanly index newSize fs disk) :
    Leaves (fsIndexTruncate index newSize) fs disk (TruncatedExactly index newSize fs disk) := by
  by_cases writable : fs.Writable index
  · have inTable := (validIndex_lt writable.1).2
    have cleanly := clean writable
    have need := sectorsFor_eq cleanly.small
    apply (consistent.leaves_fsIndexTruncate_of_resizeTo writable
      (cleanly.leaves_resizeTo consistent inTable)).mono
    rintro outcome fs' disk' ⟨edited, middle, middleDisk, keeps, failed, sized⟩
    cases outcome with
    | none =>
      obtain ⟨sameFs, sameDisk⟩ := failed rfl
      rw [sameFs, sameDisk]
      exact keeps.failed rfl
    | some done =>
      obtain ⟨size, sameFile⟩ := sized rfl
      have length := keeps.length rfl
      rw [← sameFile.data] at length
      have counted := (edited.consistent.mappable
        inTable).run_inodeSectorCount edited.consistent.formatted
      refine ⟨size, ⟨_, congrArg Prod.fst counted, by omega⟩, ?_⟩
      have sameStart : SameStart index
          (min (fs.inodes index).sizeBytes newSize) fs disk fs' disk' := by
        intro position below
        rw [sameFile.blocks]
        exact keeps.start rfl position below
      apply sameStart.take_fileBytes
      · have holds := keeps.held rfl
        unfold readableSize
        change _ ≤ min _ (512 * _)
        omega
      · unfold readableSize
        change _ ≤ min _ (512 * _)
        omega
  · refine ⟨none, fs, disk, run_fsIndexTruncate_refused writable newSize _, rfl, rfl⟩

theorem Consistent.run_fsIndexTruncate_overflowing {held : List Nat}
    (consistent : Consistent fs disk held) (writable : fs.Writable index)
    (noSectors : (fs.inodes index).dataSectors disk = []) : ∃ fs' disk',
      (fsIndexTruncate index 4294967295).run flatDevice fs (.running disk) =
        (some (), fs', .running disk') ∧ (fs'.inodes index).sizeBytes = 4294967295 ∧
      sectorCountOf (fs'.inodes index) fs' disk' = some 0 := by
  have inTable := (validIndex_lt writable.1).2
  have resizes : Leaves (resizeTo index (sectorsFor 4294967295)
        ((fs.inodes index).dataSectors disk).length) fs disk fun outcome middle middleDisk =>
        Rebuilt index fs disk held middle middleDisk ∧ (outcome = some () ∧
            (middle.inodes index).dataSectors middleDisk = []) := by
    rw [noSectors]
    exact ⟨some (), fs, disk, rfl, Rebuilt.refl consistent index, rfl, noSectors⟩
  obtain ⟨outcome, fs', disk', ran, edited, middle, middleDisk, ⟨succeeded, noneAdded⟩, _, sized⟩ :=
    consistent.leaves_fsIndexTruncate_of_resizeTo writable resizes
  subst succeeded
  obtain ⟨size, sameFile⟩ := sized rfl
  have counted := (edited.consistent.mappable inTable).run_inodeSectorCount
    edited.consistent.formatted
  rw [sameFile.data, noneAdded] at counted
  exact ⟨fs', disk', ran, size, congrArg Prod.fst counted⟩

theorem not_truncatedExactly_overflowing
    (counted : sectorCountOf (fs'.inodes index) fs' disk' = some 0) :
    ¬ TruncatedExactly index 4294967295 fs disk (some ()) fs' disk' := by
  rintro ⟨_, ⟨count, isCount, enough⟩, _⟩
  rw [counted] at isCount
  cases isCount
  exact absurd enough (by decide)

theorem newFileMachine_consistent :
    Consistent (newFileMachine.fs.withCaller 0 0) newFileMachine.dev.view [] := by
  obtain ⟨fresh, allowed⟩ := newFileMachine_reached
  have intact := (Intact.after fresh allowed).2
  rw [← newFileMachine_eq] at intact
  exact (intact.withCaller 0 0).consistent

theorem FsState.dataSectors_withCaller (fs : FsState) (uid gid index : Nat) (disk : Nat → Sector) :
    ((fs.withCaller uid gid).inodes index).dataSectors disk = (fs.inodes index).dataSectors disk :=
  rfl

theorem RegularFile.writable_root
    (regular : RegularFile fs index) (valid : validIndex index = true) :
    (fs.withCaller 0 0).Writable index :=
  ⟨valid, regular.occupied, @fsAccessOk_root (fs.withCaller 0 0) index valid regular.occupied
    rfl true⟩

theorem truncatesCleanly_of_noSectors
    {newSize : Nat} (small : newSize + 511 < 2 ^ 32) (noBytes : (fs.inodes index).sizeBytes = 0)
    (noSectors : (fs.inodes index).dataSectors disk = []) :
    TruncatesCleanly index newSize (fs.withCaller 0 0) disk := by
  refine ⟨small, fun _ => ⟨fun _ => ?_, growsInPlace_of_short ?_ _ _ _ _⟩, ?_⟩
  · exact noBytes.le.trans (Nat.zero_le _)
  · change ((fs.inodes index).sizeBytes + 511) / 512 ≤ 1
    rw [noBytes]
    decide
  · intro _ long
    change _ < ((fs.inodes index).dataSectors disk).length at long
    rw [noSectors] at long
    exact absurd long (Nat.not_lt_zero _)

/-- A new file is extended to 600 bytes. -/
theorem fsIndexTruncate_exact_newFile :
    Leaves (fsIndexTruncate 2 600) (newFileMachine.fs.withCaller 0 0) newFileMachine.dev.view
      (TruncatedExactly 2 600 (newFileMachine.fs.withCaller 0 0) newFileMachine.dev.view) := by
  obtain ⟨_, size, sectors⟩ := newFileMachine_file
  have clean := truncatesCleanly_of_noSectors (by decide : 600 + 511 < 2 ^ 32)
    size (sectors newFileMachine.dev.view)
  exact fsIndexTruncate_exact newFileMachine_consistent fun _ => clean

/-- The call succeeds and leaves a file of 4294967295 bytes without a
sector. -/
theorem fsIndexTruncate_overflows :
    Consistent (newFileMachine.fs.withCaller 0 0) newFileMachine.dev.view [] ∧ ∃ fs' disk',
        (fsIndexTruncate 2 4294967295).run flatDevice (newFileMachine.fs.withCaller 0 0)
            (.running newFileMachine.dev.view) = (some (), fs', .running disk') ∧
        (fs'.inodes 2).sizeBytes = 4294967295 ∧ sectorCountOf (fs'.inodes 2) fs' disk' = some 0 ∧
        ¬ TruncatedExactly 2 4294967295 (newFileMachine.fs.withCaller 0 0)
          newFileMachine.dev.view (some ()) fs' disk' := by
  obtain ⟨regular, _, sectors⟩ := newFileMachine_file
  have writable := regular.writable_root (by decide)
  have noSectors := FsState.dataSectors_withCaller newFileMachine.fs 0 0 2 newFileMachine.dev.view
  rw [sectors] at noSectors
  obtain ⟨fs', disk', ran, size, counted⟩ :=
    newFileMachine_consistent.run_fsIndexTruncate_overflowing writable noSectors
  exact ⟨newFileMachine_consistent, fs', disk', ran, size, counted,
    not_truncatedExactly_overflowing counted⟩

end KnitOS.Fs
