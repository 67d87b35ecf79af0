import KnitOS.Fs.Entries
import KnitOS.Fs.FileArrays
import KnitOS.Fs.Naming

/-!
# Rewriting the blob of a directory

`dir_add_entry` and `dir_remove_entry` read the whole blob, truncate the
directory to the new size and write the blob again.  A failure to grow leaves a
directory as it was; so does a failure to shrink if what it keeps can be
placed.
-/

namespace KnitOS.Fs

open Lib Lib.Program Storage

/-- A truncation that grows a file by one sector at most, and that finds room
for what it keeps of a file that it shrinks. -/
structure Steady (index newSize : Nat) (fs : FsState) (disk : Nat → Sector) : Prop where
  grows : sectorsFor newSize ≤ ((fs.inodes index).dataSectors disk).length + 1
  shrinks : 0 < sectorsFor newSize →
    sectorsFor newSize < ((fs.inodes index).dataSectors disk).length →
      Placeable index (sectorsFor newSize) (clearedState fs.ask disk index) disk

section

variable {fs : FsState} {disk : Nat → Sector} {held : List Nat}
  {index newSize : Nat}

theorem Consistent.leaves_inodeGrowSectors_one
    (consistent : Consistent fs disk held) (inTable : index < maxInodes) : Leaves
      (inodeGrowSectors index (((fs.inodes index).dataSectors disk).length + 1)) fs disk
      fun outcome fs' disk' => outcome = none → fs' = fs ∧ disk' = disk := by
  have counted := (consistent.mappable inTable).run_inodeSectorCount consistent.formatted
  rw [inodeGrowSectors]
  apply yields_reads_bind
  apply Yields.bind_of_run counted
  rw [growLoop, if_pos (Nat.lt_succ_self _), Nat.add_sub_cancel_left]
  rcases run_growRound consistent inTable (min 1 8) with failed |
    ⟨_, got, _, middle, middleDisk, _, _, added, nonempty, fits, _⟩
  · exact ⟨none, fs, disk, run_bind_of_none failed, fun _ => ⟨rfl, rfl⟩⟩
  · have one : got = 1 := by
      omega
    refine ⟨some (), middle, middleDisk, ?_, by rintro ⟨⟩⟩
    rw [run_bind_of_some added, one]
    cases ((fs.inodes index).dataSectors disk).length with
    | zero => rfl
    | succ count =>
      rw [growLoop, if_neg (Nat.lt_irrefl _)]
      rfl

/-- There is no memory for what a truncation keeps of a file. -/
def Starved (newSize : Nat) (fs : FsState) : Prop :=
  sectorsFor newSize ≠ 0 ∧
    ¬ fs.grants (u32 (sectorsFor newSize * sectorSize))

theorem Steady.leaves_resizeTo (steady : Steady index newSize fs disk)
    (consistent : Consistent fs disk held) (inTable : index < maxInodes) : Leaves
      (resizeTo index (sectorsFor newSize) ((fs.inodes index).dataSectors disk).length) fs disk
      fun outcome fs' disk' =>
        outcome = none → Looked fs fs' ∧ disk' = disk ∧
          (sectorsFor newSize ≤ ((fs.inodes index).dataSectors disk).length →
            Starved newSize fs) := by
  have grows := steady.grows
  unfold resizeTo
  apply yields_ite
  · intro short
    have one : sectorsFor newSize = ((fs.inodes index).dataSectors disk).length + 1 := by
      omega
    rw [one]
    apply (consistent.leaves_inodeGrowSectors_one inTable).mono
    intro outcome fs' disk' unchanged failed
    obtain ⟨sameFs, sameDisk⟩ := unchanged failed
    rw [sameFs]
    exact ⟨Looked.refl fs, sameDisk, fun enough => by omega⟩
  · intro notShort
    apply yields_ite
    · intro long
      obtain ⟨outcome, fs', disk', shrunk, _, _, early⟩ :=
        run_inodeShrinkTo consistent inTable (sectorsFor newSize)
      refine ⟨outcome, fs', disk', shrunk, ?_⟩
      intro failed
      have placeable : fs.grants (u32 (sectorsFor newSize * sectorSize)) →
          Placeable index (sectorsFor newSize) (clearedState fs.ask disk index) disk := by
        intro granted
        apply steady.shrinks _ long
        by_contra zero
        have isZero : sectorsFor newSize = 0 := by omega
        rw [isZero] at granted
        exact absurd granted.1 (by decide)
      obtain ⟨⟨keeps, refused⟩, sameFs, sameDisk⟩ := early placeable failed
      rw [sameFs]
      exact ⟨Looked.ask fs, sameDisk, fun _ => ⟨keeps, refused⟩⟩
    · intro _
      exact yields_pure nofun

theorem Consistent.leaves_fsIndexTruncate_steady
    (consistent : Consistent fs disk held) (newSize : Nat) :
    Leaves (fsIndexTruncate index newSize) fs disk fun outcome fs' disk' =>
      (Edited index fs disk held fs' disk' ∧
        (outcome = some () → (fs'.inodes index).sizeBytes = newSize ∧
          Resized index (sectorsFor newSize) fs disk fs' disk')) ∧
      (Steady index newSize fs disk → outcome = none → Looked fs fs' ∧ disk' = disk ∧
          (fs.Writable index → sectorsFor newSize ≤ ((fs.inodes index).dataSectors disk).length →
            Starved newSize fs)) := by
  apply leaves_and (consistent.leaves_fsIndexTruncate newSize)
  by_cases steady : Steady index newSize fs disk
  · by_cases writable : fs.Writable index
    · have inTable := (validIndex_lt writable.1).2
      have resizes := leaves_and ((consistent.leaves_resizeTo inTable (sectorsFor newSize)).mono
        fun _ _ _ resized => resized.1) (steady.leaves_resizeTo consistent inTable)
      apply (consistent.leaves_fsIndexTruncate_of_resizeTo writable resizes).mono
      rintro outcome fs' disk' ⟨_, middle, middleDisk, unchanged, same, _⟩ _ failed
      obtain ⟨sameFs, sameDisk⟩ := same failed
      rw [sameFs, sameDisk]
      obtain ⟨looked, kept, starved⟩ := unchanged failed
      exact ⟨looked, kept, fun _ => starved⟩
    · exact ⟨none, fs, disk, run_fsIndexTruncate_refused writable newSize _,
        fun _ _ => ⟨Looked.refl fs, rfl, fun allowed =>
          absurd allowed writable⟩⟩
  · exact (consistent.leaves_fsIndexTruncate newSize).mono
      fun _ _ _ _ isSteady => absurd isSteady steady

end

section

variable {fs fs' : FsState} {disk disk' : Nat → Sector} {index : Nat}
  {data : List UInt8}

theorem Stored.holdsArray (stored : Stored index 0 data fs disk fs' disk')
    (size : (fs.inodes index).sizeBytes = data.length)
    (room : data.length ≤ 512 * ((fs.inodes index).dataSectors disk).length) :
    HoldsArray index data fs' disk' := by
  refine ⟨stored.sizeBytes.trans size, ?_, ?_⟩
  · rw [stored.sectors]
    exact room
  · intro position inside
    rw [stored.contents, overwrite, if_pos ⟨Nat.zero_le _, by omega⟩, Nat.sub_zero]

theorem HoldsArray.empty (size : (fs.inodes index).sizeBytes = 0) : HoldsArray index [] fs disk :=
  ⟨size, Nat.zero_le _, fun _ impossible => absurd impossible (Nat.not_lt_zero _)⟩

/-- A file has the sectors that its bytes need, and no more. -/
def Snug (index : Nat) (bytes : List UInt8) (fs : FsState) (disk : Nat → Sector) : Prop :=
  ((fs.inodes index).dataSectors disk).length = (bytes.length + 511) / 512

theorem Worked.writable {files : Nat → Prop} (worked : Worked files fs disk fs' disk')
    (writable : fs.Writable index) : fs'.Writable index :=
  ⟨writable.1, (worked.occupied index).trans writable.2.1,
    (worked.fsAccessOk index true).trans writable.2.2⟩

/-- Truncating a file to the size of some bytes and writing them replaces its
contents, and fails only if the truncation does. -/
theorem Consistent.leaves_rewrite (consistent : Consistent fs disk [])
    (accepts : fs.Accepts index) (small : data.length + 511 < 2 ^ 32) : Leaves (do
        fsIndexTruncate index data.length
        let written ← fsIndexWrite index 0 data
        require (written = data.length))
      fs disk fun outcome fs' disk' =>
        Worked (· = index) fs disk fs' disk' ∧
        ((fsIndexTruncate index data.length).run flatDevice fs (.running disk)).1 = outcome ∧
        (outcome = some () → HoldsArray index data fs' disk' ∧ Snug index data fs' disk') ∧
        (Steady index data.length fs disk → outcome = none → Looked fs fs' ∧ disk' = disk ∧
            (sectorsFor data.length ≤ ((fs.inodes index).dataSectors disk).length →
              Starved data.length fs)) := by
  apply (consistent.leaves_fsIndexTruncate_steady data.length).with_outcome.bind
  · rintro fs₁ disk₁ ⟨⟨⟨edited, _⟩, unchanged⟩, failed⟩
    refine ⟨Worked.of_edited edited rfl accepts.1.2.1, failed, nofun, ?_⟩
    intro steady _
    obtain ⟨looked, same, starved⟩ := unchanged steady rfl
    exact ⟨looked, same, starved accepts.1⟩
  rintro _ fs₁ disk₁ ⟨⟨⟨edited, sized⟩, _⟩, truncated⟩
  obtain ⟨size, resized⟩ := sized rfl
  have worked : Worked (· = index) fs disk fs₁ disk₁ := Worked.of_edited edited rfl accepts.1.2.1
  have acceptsThere : fs₁.Accepts index :=
    ⟨worked.writable accepts.1, (Inode.isSpecial_congr (worked.flags index)).trans accepts.2⟩
  have need := sectorsFor_eq small
  have room : data.length ≤ 512 * ((fs₁.inodes index).dataSectors disk₁).length := by
    rw [resized.length]
    omega
  apply (worked.consistent.leaves_fsIndexWrite_inside acceptsThere
    (by rw [size, Nat.zero_add]) (by rw [size]; exact room)).bind
  · rintro fs₂ disk₂ ⟨impossible, _⟩
    cases impossible
  rintro written fs₂ disk₂ ⟨count, writeEdited, stored⟩
  cases count
  rw [require_of rfl]
  apply yields_pure
  refine ⟨worked.trans (Worked.of_edited writeEdited rfl acceptsThere.1.2.1), truncated,
    fun _ => ⟨stored.holdsArray size room, ?_⟩, nofun⟩
  rw [Snug, stored.sectors, resized.length, need]

end

section

variable {fs fs' : FsState} {disk disk' : Nat → Sector} {dir : Nat}

theorem length_dirBlob (fs : FsState) (disk : Nat → Sector) (dir : Nat) :
    (dirBlob fs disk dir).length = dirSize fs disk dir := by
  unfold dirBlob dirSize
  rw [List.length_take, length_fileBytes]
  omega

variable (looked : Looked fs fs')
include looked

theorem Looked.dirBlob (disk : Nat → Sector)
    (dir : Nat) : dirBlob fs' disk dir = dirBlob fs disk dir := by
  have bytes := congrArg NodeView.bytes (congrFun (looked.nodeView disk) dir)
  change fileBytes fs' disk dir = fileBytes fs disk dir at bytes
  rw [dirBlob_eq, dirBlob_eq, bytes]

theorem Looked.dirSize (disk : Nat → Sector)
    (dir : Nat) : dirSize fs' disk dir = dirSize fs disk dir := by
  rw [← length_dirBlob, looked.dirBlob, length_dirBlob]

theorem Looked.readable_iff (index : Nat) : fs'.Readable index ↔ fs.Readable index := by
  have view := looked.nodeView fun _ _ => 0
  rw [← @nodeView_readable_iff fs' (fun _ _ => 0), view, nodeView_readable_iff]

theorem Looked.writable_iff (index : Nat) : fs'.Writable index ↔ fs.Writable index := by
  unfold FsState.Writable
  rw [looked.fsAccessOk, Inode.occupied_congr (looked.flags index)]

omit looked

theorem dirSize_le_sectors (fs : FsState) (disk : Nat → Sector) (dir : Nat) :
    dirSize fs disk dir ≤ 512 * ((fs.inodes dir).dataSectors disk).length :=
  (Nat.min_le_left _ _).trans (Nat.min_le_right _ _)

/-- `dir_add_entry` wrote a record for a new name behind the others. -/
structure Appended (dir child : Nat) (name : List UInt8) (fs : FsState)
    (disk : Nat → Sector) (fs' : FsState) (disk' : Nat → Sector) : Prop where
  writable : fs.Writable dir
  short : name.length < 256
  absent : (fs.inodes dir).isDirectory = true → entryNamed (dirBlob fs disk dir) name = none
  holds : HoldsArray dir (dirBlob fs disk dir ++ Dirent.encode ⟨child, name⟩) fs' disk'
  snug : Snug dir (dirBlob fs disk dir ++ Dirent.encode ⟨child, name⟩) fs' disk'

/-- `dir_remove_entry` took out the first record for a name. -/
def Removed (dir : Nat) (name : List UInt8) (fs : FsState)
    (disk : Nat → Sector) (fs' : FsState) (disk' : Nat → Sector) : Prop :=
  ∃ shorter,
    removeDirent name (dirBlob fs disk dir).length (dirBlob fs disk dir) =
      some shorter ∧
    HoldsArray dir shorter fs' disk' ∧ Snug dir shorter fs' disk'

/-- Adding a record is a steady truncation, whatever was looked at before. -/
def AddsSteadily (dir : Nat) (name : List UInt8) (fs : FsState) (disk : Nat → Sector) : Prop :=
  ∀ fs', Looked fs fs' →
    Steady dir (dirSize fs disk dir + recordSize name.length) fs' disk

/-- Removing a record is a steady truncation, whatever was looked at
before. -/
def RemovesSteadily (dir : Nat) (name : List UInt8) (fs : FsState) (disk : Nat → Sector) : Prop :=
  ∀ shorter,
    removeDirent name (dirBlob fs disk dir).length (dirBlob fs disk dir) =
      some shorter →
    ∀ fs', Looked fs fs' → Steady dir shorter.length fs' disk

section

variable (consistent : Consistent fs disk [])

include consistent

theorem Consistent.leaves_oldBlob {rec : Nat} (granted : fs.grants (dirSize fs disk dir + rec)) :
    Leaves (oldBlob dir (dirSize fs disk dir) rec) fs disk fun outcome fs' disk' =>
        Looked fs fs' ∧ disk' = disk ∧
        ∀ old, outcome = some old → old = dirBlob fs disk dir ∧
            (fs.Readable dir ∨ dirBlob fs disk dir = []) := by
  apply Yields.bind_of_run (run_malloc_of_grants _ _ granted)
  apply yields_ite
  · intro empty
    have isNil := dirBlob_of_dirSize_zero empty
    apply yields_pure
    refine ⟨Looked.ask fs, rfl, ?_⟩
    intro old isOld
    cases isOld
    exact ⟨isNil.symm, Or.inr isNil⟩
  · intro _
    by_cases readable : fs.ask.Readable dir
    · refine ⟨_, _, _, consistent.ask.run_fsIndexRead readable 0 _,
        (Looked.ask fs).trans (fs.ask.looked_accessed dir), rfl, ?_⟩
      intro old isOld
      cases isOld
      exact ⟨rfl, Or.inl readable⟩
    · exact ⟨none, fs.ask, disk, run_fsIndexRead_refused readable 0 _ _, Looked.ask fs, rfl, nofun⟩

variable (legible : fs.Legible)
include legible

/-- `dir_add_entry` appends a record for a name that is not there yet, if
there is memory for the new blob, or it changes nothing. -/
theorem Consistent.leaves_dirAddEntry
    (notSpecial : (fs.inodes dir).isSpecial = false) (child : Nat) (name : List UInt8)
    (granted : ∀ asked, fs.kernel.heap asked
      (dirSize fs disk dir + recordSize name.length) = true) :
    Leaves (dirAddEntry dir child name) fs disk fun outcome fs' disk' =>
      Worked (· = dir) fs disk fs' disk' ∧
      (outcome = some () → Appended dir child name fs disk fs' disk') ∧
      (AddsSteadily dir name fs disk → outcome = none → Looked fs fs' ∧ disk' = disk) := by
  have unchanged : ∀ fs', Looked fs fs' → Worked (· = dir) fs disk fs' disk := by
    intro fs' looked
    exact Worked.of_looked looked consistent _
  have fails : ∀ fs', Looked fs fs' → Worked (· = dir) fs disk fs' disk ∧
      ((none : Option Unit) = some () → Appended dir child name fs disk fs' disk) ∧
      (AddsSteadily dir name fs disk → (none : Option Unit) = none →
        Looked fs fs' ∧ disk = disk) := by
    intro fs' looked
    exact ⟨unchanged fs' looked, nofun, fun _ _ => ⟨looked, rfl⟩⟩
  rw [dirAddEntry]
  apply yields_require_bind
  · intro _
    exact fails fs (Looked.refl fs)
  intro sized
  have nameShort : name.length ≤ 255 := sized.2
  apply (consistent.leaves_dirFindName dir name).attempt_bind
  rintro existing fs₁ disk ⟨looked₁, rfl, found, _⟩
  apply yields_require_bind
  · intro _
    exact fails fs₁ looked₁
  intro absent
  have consistent₁ := looked₁.consistent consistent
  by_cases writable : fs.Writable dir
  · have limit := dirSize_le fs disk dir
    have large := Dirent.size_pos ⟨child, name⟩
    have recordSmall : Dirent.size ⟨child, name⟩ ≤ 264 := recordSize_le_of_short nameShort
    have heap := congrArg Kernel.heap looked₁.kernel
    change fs₁.kernel.heap = fs.kernel.heap at heap
    have grantedThere : fs₁.grants (dirSize fs₁ disk dir + Dirent.size ⟨child, name⟩) := by
      rw [looked₁.dirSize]
      refine ⟨by omega, ?_, ?_⟩
      · change dirSize fs disk dir + Dirent.size ⟨child, name⟩ ≤ 524288
        omega
      · rw [heap]
        exact granted _
    apply Yields.bind_of_run (consistent₁.run_dirLogicalSize dir)
    rw [if_pos writable.1]
    apply (consistent₁.leaves_oldBlob grantedThere).bind
    · rintro fs₂ disk ⟨looked₂, rfl, _⟩
      exact fails fs₂ (looked₁.trans looked₂)
    rintro old fs₂ disk ⟨looked₂, rfl, isOld⟩
    have looked := looked₁.trans looked₂
    obtain ⟨oldEq, seen⟩ := isOld old rfl
    rw [looked₁.dirBlob] at oldEq seen
    have isAbsent : (fs.inodes dir).isDirectory = true →
        entryNamed (dirBlob fs disk dir) name = none := by
      intro isDirectory
      rcases seen with readable | empty
      · rw [← found (legible.searchable ((looked₁.readable_iff dir).mp readable) isDirectory)]
        exact Option.isNone_iff_eq_none.mp absent
      · rw [empty]
        rfl
    have length : (dirBlob fs disk dir ++ Dirent.encode ⟨child, name⟩).length =
        dirSize fs disk dir + Dirent.size ⟨child, name⟩ := by
      rw [List.length_append, Dirent.length_encode, length_dirBlob]
    have special := (Inode.isSpecial_congr (looked.flags dir)).trans notSpecial
    have rewritten := (looked.consistent consistent).leaves_rewrite
      ⟨(looked.writable_iff dir).mpr writable, special⟩ (by rw [length]; omega :
        (dirBlob fs disk dir ++ Dirent.encode ⟨child, name⟩).length + 511 < 2 ^ 32)
    rw [length] at rewritten
    rw [oldEq, looked₁.dirSize]
    apply rewritten.mono
    rintro outcome fs' disk' ⟨worked, _, holds, steadily⟩
    refine ⟨(unchanged fs₂ looked).trans worked, ?_, ?_⟩
    · intro succeeded
      obtain ⟨holdsRecord, snug⟩ := holds succeeded
      exact ⟨writable, Nat.lt_succ_of_le nameShort, isAbsent, holdsRecord, snug⟩
    · intro steady failed
      obtain ⟨lookedLast, same, _⟩ := steadily (steady fs₂ looked) failed
      exact ⟨looked.trans lookedLast, same⟩
  · apply Yields.bind_of_run (consistent₁.run_dirLogicalSize dir)
    apply Yields.bind (consistent₁.observes_oldBlob dir _ _)
    · rintro fs₂ disk ⟨looked₂, rfl⟩
      exact fails fs₂ (looked₁.trans looked₂)
    rintro old fs₂ disk ⟨looked₂, rfl⟩
    have looked := looked₁.trans looked₂
    have refused : ¬ fs₂.Writable dir :=
      fun allowed => writable ((looked.writable_iff dir).mp allowed)
    exact ⟨none, fs₂, _, run_bind_of_none
      (run_fsIndexTruncate_refused refused _ _), fails fs₂ looked⟩

theorem Consistent.leaves_readBlob (nonempty : dirSize fs disk dir ≠ 0) :
    Leaves (readBlob dir (dirSize fs disk dir)) fs disk fun outcome fs' disk' =>
        Looked fs fs' ∧ disk' = disk ∧
        (fs.Readable dir → outcome = some (dirBlob fs disk dir)) ∧
        (¬ fs.Readable dir → outcome = none) := by
  have positive := Nat.pos_of_ne_zero nonempty
  have limit := dirSize_le fs disk dir
  have granted : fs.grants (dirSize fs disk dir) :=
    ⟨positive, limit.trans (by decide), legible _ _ positive limit⟩
  by_cases readable : fs.Readable dir
  · exact ⟨_, _, _, consistent.run_readBlob granted readable,
      (Looked.ask fs).trans (fs.ask.looked_accessed dir), rfl, fun _ => rfl,
      fun refused => absurd readable refused⟩
  · apply (leaves_readBlob_refused fun ready => readable ready.2).mono
    rintro outcome fs' disk' ⟨failed, looked, same⟩
    exact ⟨looked, same, fun allowed => absurd allowed readable, fun _ => failed⟩

/-- Storing a blob that is not longer than the limit replaces the old one, or
changes nothing if the truncation is steady. -/
theorem Consistent.leaves_storeBlob
    (notSpecial : (fs.inodes dir).isSpecial = false) {shorter : List UInt8}
    (short : shorter.length ≤ 65536) :
    Leaves (storeBlob dir shorter) fs disk fun outcome fs' disk' =>
      Worked (· = dir) fs disk fs' disk' ∧
      (outcome = some () → HoldsArray dir shorter fs' disk' ∧ Snug dir shorter fs' disk') ∧
      (Steady dir shorter.length fs disk → outcome = none → Looked fs fs' ∧ disk' = disk ∧
          (shorter.length ≤ 512 * ((fs.inodes dir).dataSectors disk).length →
            ¬ fs.Writable dir)) := by
  have need := sectorsFor_eq (by omega : shorter.length + 511 < 2 ^ 32)
  have fed : ¬ Starved shorter.length fs := by
    rintro ⟨keeps, refused⟩
    apply refused
    have positive : 0 < sectorsFor shorter.length * 512 := by omega
    have small : sectorsFor shorter.length * 512 ≤ 65536 := by omega
    rw [u32_of_lt (Nat.lt_of_le_of_lt small (by decide))]
    exact ⟨positive, small.trans (by decide), legible _ _ positive small⟩
  by_cases writable : fs.Writable dir
  · by_cases empty : shorter.isEmpty = true
    · have isNil := List.isEmpty_iff.mp empty
      rw [isNil] at fed ⊢
      apply (consistent.leaves_fsIndexTruncate_steady 0).bind
      · rintro fs' disk' ⟨⟨edited, _⟩, unchanged⟩
        refine ⟨Worked.of_edited edited rfl writable.2.1, nofun, ?_⟩
        intro steady failed
        obtain ⟨looked, same, starved⟩ := unchanged steady failed
        exact ⟨looked, same, fun _ =>
          absurd (starved writable (Nat.zero_le _)) fed⟩
      rintro _ fs' disk' ⟨⟨edited, sized⟩, _⟩
      obtain ⟨size, resized⟩ := sized rfl
      apply yields_pure
      exact ⟨Worked.of_edited edited rfl writable.2.1,
        fun _ => ⟨HoldsArray.empty size, resized.length⟩, nofun⟩
    · have rewritten := consistent.leaves_rewrite ⟨writable, notSpecial⟩
        (by omega : shorter.length + 511 < 2 ^ 32)
      unfold storeBlob
      rw [if_neg empty]
      apply rewritten.mono
      rintro _ fs' disk' ⟨worked, _, holds, steadily⟩
      refine ⟨worked, holds, ?_⟩
      intro steady failed
      obtain ⟨looked, same, starved⟩ := steadily steady failed
      refine ⟨looked, same, fun room => absurd (starved ?_) fed⟩
      omega
  · exact ⟨none, fs, disk, run_bind_of_none (run_fsIndexTruncate_refused writable _ _),
      Worked.of_looked (Looked.refl fs) consistent _, nofun,
      fun _ _ => ⟨Looked.refl fs, rfl, fun _ => writable⟩⟩

/-- `dir_remove_entry` takes out the first record for the name, or it changes
nothing if what it keeps can be placed.  It then fails only if there is no such
record, or if the caller may not read and write the directory. -/
theorem Consistent.leaves_dirRemoveEntry (name : List UInt8) :
    Leaves (dirRemoveEntry dir name) fs disk fun outcome fs' disk' =>
      Worked (· = dir) fs disk fs' disk' ∧
      (outcome = some () → Removed dir name fs disk fs' disk') ∧
      (RemovesSteadily dir name fs disk → outcome = none → Looked fs fs' ∧ disk' = disk ∧
          (fs.Readable dir → fs.Writable dir → removeDirent name (dirBlob fs disk dir).length
              (dirBlob fs disk dir) = none)) := by
  have unchanged : ∀ fs', Looked fs fs' → Worked (· = dir) fs disk fs' disk := by
    intro fs' looked
    exact Worked.of_looked looked consistent _
  have fails : ∀ fs', Looked fs fs' →
      (fs.Readable dir → removeDirent name (dirBlob fs disk dir).length
        (dirBlob fs disk dir) = none) → Worked (· = dir) fs disk fs' disk ∧
      ((none : Option Unit) = some () → Removed dir name fs disk fs' disk) ∧
      (RemovesSteadily dir name fs disk → (none : Option Unit) = none →
        Looked fs fs' ∧ disk = disk ∧ (fs.Readable dir → fs.Writable dir →
            removeDirent name (dirBlob fs disk dir).length (dirBlob fs disk dir) = none)) := by
    intro fs' looked nothing
    exact ⟨unchanged fs' looked, nofun,
      fun _ _ => ⟨looked, rfl, fun readable _ => nothing readable⟩⟩
  rw [dirRemoveEntry]
  apply Yields.bind_of_run (consistent.run_dirLogicalSize dir)
  by_cases valid : validIndex dir = true
  · rw [if_pos valid]
    apply yields_require_bind
    · intro empty
      rw [not_not] at empty
      apply fails fs (Looked.refl fs)
      intro _
      rw [dirBlob_of_dirSize_zero empty]
      rfl
    intro nonempty
    apply (consistent.leaves_readBlob legible nonempty).bind
    · rintro fs₁ disk ⟨looked, rfl, isBlob, _⟩
      apply fails fs₁ looked
      intro readable
      cases isBlob readable
    rintro read fs₁ disk ⟨looked, rfl, isBlob, refused⟩
    have readable : fs.Readable dir := by
      by_contra unreadable
      cases refused unreadable
    cases isBlob readable
    cases removed : removeDirent name (dirBlob fs disk dir).length (dirBlob fs disk dir) with
    | none =>
      have failure := fails fs₁ looked fun _ => removed
      rw [removed] at failure
      exact yields_fail failure
    | some shorter =>
      have short := length_removeDirent_le name _ removed
      have limit := dirSize_le fs disk dir
      have room := dirSize_le_sectors fs disk dir
      rw [length_dirBlob] at short
      have special := (Inode.isSpecial_congr (looked.flags dir)).trans readable.2.2.1
      apply ((looked.consistent consistent).leaves_storeBlob
        (looked.legible_iff.mpr legible) special (short.trans limit)).mono
      rintro outcome fs' disk' ⟨worked, holds, steadily⟩
      refine ⟨(unchanged fs₁ looked).trans worked, ?_, ?_⟩
      · intro succeeded
        exact ⟨shorter, removed, holds succeeded⟩
      · intro steady failed
        obtain ⟨lookedLast, same, refusedWrite⟩ :=
          steadily (steady shorter removed fs₁ looked) failed
        refine ⟨looked.trans lookedLast, same, ?_⟩
        intro _ writable
        rw [looked.dataSectors disk dir] at refusedWrite
        exact absurd ((looked.writable_iff dir).mpr writable) (refusedWrite (short.trans room))
  · rw [if_neg valid, require_of_not (fun possible => possible rfl)]
    exact yields_fail (fails fs (Looked.refl fs) fun readable =>
      absurd readable.1 valid)

end

end

/-- A directory with all its bytes, and memory for them. -/
structure StoredDirectory (dir : Nat) (blob : List UInt8) (fs : FsState)
    (disk : Nat → Sector) : Prop where
  consistent : Consistent fs disk []
  legible : fs.Legible
  valid : validIndex dir = true
  occupied : (fs.inodes dir).occupied = true
  notSpecial : (fs.inodes dir).isSpecial = false
  isDirectory : (fs.inodes dir).isDirectory = true
  holds : HoldsArray dir blob fs disk
  short : blob.length ≤ 65536

namespace StoredDirectory

variable {dir : Nat} {blob : List UInt8} {fs fs' : FsState}
  {disk disk' : Nat → Sector}

theorem of_worked {other : List UInt8} {files : Nat → Prop}
    (stored : StoredDirectory dir blob fs disk) (worked : Worked files fs disk fs' disk')
    (holds : HoldsArray dir other fs' disk')
    (short : other.length ≤ 65536) : StoredDirectory dir other fs' disk' := by
  have heap := congrArg Kernel.heap worked.kernel
  change fs'.kernel.heap = fs.kernel.heap at heap
  have flags := worked.flags dir
  refine ⟨worked.consistent, ?_, stored.valid, ?_, ?_, ?_, holds, short⟩
  · unfold FsState.Legible
    rw [heap]
    exact stored.legible
  · rw [worked.occupied dir]
    exact stored.occupied
  · exact (Inode.isSpecial_congr flags).trans stored.notSpecial
  · exact (Inode.isDirectory_congr flags).trans stored.isDirectory

variable (stored : StoredDirectory dir blob fs disk)

include stored

theorem of_looked (looked : Looked fs fs') : StoredDirectory dir blob fs' disk := by
  have worked := Worked.of_looked looked stored.consistent (· = dir)
  refine stored.of_worked worked ?_ stored.short
  refine stored.holds.of_sameFile (looked.sizeBytes dir) ⟨?_, fun _ _ => rfl⟩
  exact looked.dataSectors disk dir

theorem readable_iff : fs.Readable dir ↔ fsAccessOk fs dir false = true :=
  ⟨fun readable => readable.2.2.2, fun access =>
    ⟨stored.valid, stored.occupied, stored.notSpecial, access⟩⟩

theorem dirBlob_eq : dirBlob fs disk dir = blob := by
  rw [KnitOS.Fs.dirBlob_eq, stored.holds.fileBytes_eq, List.take_of_length_le stored.short]

theorem dirSize_eq : dirSize fs disk dir = blob.length := by
  rw [← length_dirBlob, stored.dirBlob_eq]

theorem run_dirLogicalSize : (dirLogicalSize dir).run flatDevice fs (.running disk) =
    (some blob.length, fs, .running disk) := by
  rw [stored.consistent.run_dirLogicalSize, if_pos stored.valid, stored.dirSize_eq]

theorem leaves_dirFindName (name : List UInt8) :
    Leaves (dirFindName dir name) fs disk fun outcome fs' disk' =>
      Looked fs fs' ∧ disk' = disk ∧
      (fs.Readable dir → outcome = entryNamed blob name) ∧
      (¬ fs.Readable dir → outcome = none) := by
  apply (stored.consistent.leaves_dirFindName dir name).mono
  rintro outcome fs' disk' ⟨looked, same, found, notFound⟩
  refine ⟨looked, same, ?_, ?_⟩
  · intro readable
    rw [found (stored.legible.searchable readable stored.isDirectory), stored.dirBlob_eq]
  · intro refused
    by_cases searchable : fs.Searchable disk dir
    · rw [found searchable]
      obtain ⟨_, _, empty | ⟨_, readable⟩⟩ := searchable
      · rw [dirBlob_of_dirSize_zero empty]
        rfl
      · exact absurd readable refused
    · exact notFound searchable

theorem leaves_dirAddEntry (child : Nat) (name : List UInt8)
    (granted : ∀ asked, fs.kernel.heap asked (blob.length + recordSize name.length) = true) :
    Leaves (dirAddEntry dir child name) fs disk fun outcome fs' disk' =>
      Worked (· = dir) fs disk fs' disk' ∧
      (outcome = some () → Appended dir child name fs disk fs' disk') := by
  have adds := stored.consistent.leaves_dirAddEntry stored.legible
    stored.notSpecial child name (by rw [stored.dirSize_eq]; exact granted)
  exact adds.mono fun _ _ _ holds => ⟨holds.1, holds.2.1⟩

theorem leaves_dirRemoveEntry (name : List UInt8) :
    Leaves (dirRemoveEntry dir name) fs disk fun outcome fs' disk' =>
      Worked (· = dir) fs disk fs' disk' ∧
      (outcome = some () → ∃ shorter, removeDirent name blob.length blob = some shorter ∧
          StoredDirectory dir shorter fs' disk') := by
  apply (stored.consistent.leaves_dirRemoveEntry stored.legible name).mono
  rintro outcome fs' disk' ⟨worked, removed, _⟩
  refine ⟨worked, fun succeeded => ?_⟩
  obtain ⟨shorter, isShorter, holds, _⟩ := removed succeeded
  rw [stored.dirBlob_eq] at isShorter
  have short := length_removeDirent_le name _ isShorter
  exact ⟨shorter, isShorter, stored.of_worked worked holds (short.trans stored.short)⟩

end StoredDirectory

end KnitOS.Fs
