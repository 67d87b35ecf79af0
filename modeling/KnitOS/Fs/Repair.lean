import KnitOS.Fs.Intact

/-!
# `fs_fsck` without extended attributes

The check marks the data sectors and the indirect block of every occupied inode
and clears the bits of all other sectors, so without extended attributes it
keeps every sector with its owner.
-/

namespace KnitOS.Fs

open Lib Lib.Program Storage

def NoXattr (fs : FsState) : Prop :=
  ∀ index, index < maxInodes → (fs.inodes index).xattrLba = 0

/-- All these sectors are marked as in use. -/
def Tally.Covers (tally : Tally) (sectors : List Nat) : Prop :=
  ∀ sector ∈ sectors, tally.mark sector = true

/-- Marks are only added. -/
def Tally.Keeps (tally tally' : Tally) : Prop :=
  ∀ sector, tally.mark sector = true → tally'.mark sector = true

theorem Tally.Keeps.trans {first second third : Tally}
    (early : first.Keeps second) (late : second.Keeps third) : first.Keeps third :=
  fun sector marked => late sector (early sector marked)

theorem Tally.Covers.keep {tally tally' : Tally} {sectors : List Nat}
    (covers : tally.Covers sectors) (keeps : tally.Keeps tally') : tally'.Covers sectors :=
  fun sector member => keeps sector (covers sector member)

theorem Tally.markSector_keeps (tally : Tally) (lba : Nat) :
    tally.Keeps (tally.markSector lba) := by
  intro sector marked
  unfold Tally.markSector
  by_cases same : sector = lba
  · rw [same]
    exact Function.update_self _ _ _
  · rw [← marked]
    exact Function.update_of_ne same _ _

theorem Tally.markSector_self (tally : Tally) (lba : Nat) :
    (tally.markSector lba).mark lba = true := Function.update_self _ _ _

section

variable {fs : FsState} {disk : Nat → Sector} {index : Nat}

theorem Intact.leaves_checkSector (intact : Intact fs disk)
    (inTable : index < maxInodes) {fileSector lba : Nat}
    (at_ : ((fs.inodes index).dataSectors disk)[fileSector]? = some lba)
    (repair : Bool) (tally : Tally) : Leaves (checkSector repair index fileSector tally) fs disk
      fun outcome fs' disk' =>
        fs' = fs ∧ disk' = disk ∧
        ∃ tally', outcome = some tally' ∧ tally.Keeps tally' ∧ tally'.mark lba = true := by
  have consistent := intact.consistent
  have mapped := (consistent.mappable inTable).run_inodeMapSector consistent.formatted fileSector
  rw [at_] at mapped
  have owned := consistent.owned.inode_marked inTable lba
    (List.mem_append_left _ (List.mem_of_getElem? at_))
  let seen := if tally.mark lba then tally.noteError else tally
  have sameMarks : seen.mark = tally.mark := by
    simp only [seen]
    split <;> rfl
  refine ⟨some (seen.markSector lba), fs, disk, ?_, rfl, rfl,
    seen.markSector lba, rfl, ?_, seen.markSector_self lba⟩
  · rw [checkSector, run_inodeAt_bind, run_attempt_bind, mapped, run_reads_bind]
    dsimp only
    rw [if_neg (Nat.not_le.mpr owned.2.1), checkBit, run_reads_bind, id_eq, if_pos owned.2.2]
    rfl
  · intro sector marked
    apply seen.markSector_keeps
    rw [sameMarks]
    exact marked

theorem Intact.leaves_checkSectors (intact : Intact fs disk)
    (inTable : index < maxInodes) (repair : Bool) : ∀ (count first : Nat) (tally : Tally),
      first + count ≤ ((fs.inodes index).dataSectors disk).length →
      Leaves (checkSectors repair index first count tally) fs disk fun outcome fs' disk' =>
          fs' = fs ∧ disk' = disk ∧
          ∃ tally', outcome = some tally' ∧ tally.Keeps tally' ∧ tally'.Covers
              ((((fs.inodes index).dataSectors disk).drop first).take count) := by
  intro count
  induction count with
  | zero =>
    intro first tally _
    apply yields_pure
    refine ⟨rfl, rfl, tally, rfl, fun _ marked => marked, ?_⟩
    rw [List.take_zero]
    intro sector member
    cases member
  | succ count ih =>
    intro first tally inside
    have within : first < ((fs.inodes index).dataSectors disk).length := by
      omega
    apply (intact.leaves_checkSector inTable (List.getElem?_eq_getElem within) repair tally).bind
    · rintro fs' disk' ⟨_, _, _, impossible, _⟩
      cases impossible
    rintro next fs' disk' ⟨fsEq, diskEq, tally', nextEq, keeps, marked⟩
    cases nextEq
    rw [fsEq, diskEq]
    apply (ih (first + 1) next (by omega)).mono
    rintro outcome fs'' disk'' ⟨fsEq', diskEq', last, lastEq, lastKeeps, covers⟩
    refine ⟨fsEq', diskEq', last, lastEq, keeps.trans lastKeeps, ?_⟩
    rw [List.drop_eq_getElem_cons within, List.take_succ_cons]
    exact List.forall_mem_cons.mpr ⟨lastKeeps _ marked, covers⟩

end

theorem direntNext_size {blob : List UInt8} {entry : Dirent}
    (found : direntNext blob = some entry) : 8 ≤ entry.size ∧ entry.size ≤ blob.length := by
  unfold direntNext at found
  split at found
  · rename_i b0 b1 b2 b3 nameLength rest
    split at found
    · rename_i fits
      cases found
      have full : (rest.take nameLength.toNat).length = nameLength.toNat := by
        rw [List.length_take]
        unfold recordSize direntHdr at fits
        simp only [List.length_cons] at fits
        omega
      unfold Dirent.size
      rw [full]
      refine ⟨?_, fits⟩
      unfold recordSize direntHdr
      omega
    · cases found
  · cases found

theorem checkDirents_spec (fs : FsState) (repair : Bool) :
    ∀ (rounds : Nat) (blob : List UInt8) (tally : Tally),
      (checkDirents fs repair rounds blob tally).1.length = blob.length ∧
        (checkDirents fs repair rounds blob tally).2.2.mark = tally.mark := by
  intro rounds
  induction rounds with
  | zero =>
    intro blob tally
    exact ⟨rfl, rfl⟩
  | succ rounds ih =>
    intro blob tally
    rw [checkDirents]
    cases found : direntNext blob with
    | none => exact ⟨rfl, rfl⟩
    | some entry =>
      obtain ⟨large, fits⟩ := direntNext_size found
      have whole : ∀ rest : List UInt8, rest.length = (blob.drop entry.size).length →
            (blob.take entry.size ++ rest).length = blob.length := by
        intro rest same
        rw [List.length_append, same, List.length_take, List.length_drop]
        omega
      dsimp only
      split
      · have rest := ih (blob.drop entry.size) tally
        exact ⟨whole _ rest.1, rest.2⟩
      · split
        · have rest := ih (blob.drop entry.size) (tally.countLink entry.ino)
          exact ⟨whole _ rest.1, rest.2⟩
        · split
          · have rest := ih (blob.drop entry.size) tally.noteError.noteRepair
            refine ⟨?_, rest.2⟩
            rw [List.length_append, rest.1, List.length_append,
              List.length_replicate, List.length_drop, List.length_take, List.length_drop]
            omega
          · have rest := ih (blob.drop entry.size) tally.noteError
            exact ⟨whole _ rest.1, rest.2⟩

/-- What the first loop leaves alone: which inodes are occupied, and which
sectors they own. -/
structure Swept (fs : FsState) (disk : Nat → Sector) (fs' : FsState)
    (disk' : Nat → Sector) : Prop where
  intact : Intact fs' disk'
  boot : fs'.boot = fs.boot
  flags : ∀ index, (fs'.inodes index).flags = (fs.inodes index).flags
  owned : ∀ index, index < maxInodes → (fs'.inodes index).ownedSectors disk' =
      (fs.inodes index).ownedSectors disk
  noXattr : NoXattr fs → NoXattr fs'

namespace Swept

variable {fs fs' fs'' : FsState} {disk disk' disk'' : Nat → Sector}

theorem refl (intact : Intact fs disk) : Swept fs disk fs disk :=
  ⟨intact, rfl, fun _ => rfl, fun _ _ => rfl, fun none => none⟩

theorem trans (first : Swept fs disk fs' disk')
    (second : Swept fs' disk' fs'' disk'') : Swept fs disk fs'' disk'' := by
  refine ⟨second.intact, second.boot.trans first.boot, ?_, ?_, ?_⟩
  · intro index
    exact (second.flags index).trans (first.flags index)
  · intro index inTable
    exact (second.owned index inTable).trans (first.owned index inTable)
  · intro none
    exact second.noXattr (first.noXattr none)

theorem of_looked (intact : Intact fs disk) (looked : Looked fs fs') : Swept fs disk fs' disk := by
  refine ⟨intact.of_looked looked, looked.boot, looked.flags, ?_, ?_⟩
  · intro index _
    exact (Inode.sameBlocks_of_unread (looked.inodes index)).ownedSectors disk
  · intro none index inTable
    rw [(Inode.sameBlocks_of_unread (looked.inodes index)).xattrLba]
    exact none index inTable

theorem of_edited {index : Nat} (intact : Intact fs disk)
    (edited : Edited index fs disk [] fs' disk') (occupied : (fs.inodes index).occupied = true)
    (indirectLba : (fs'.inodes index).indirectLba = (fs.inodes index).indirectLba)
    (data : (fs'.inodes index).dataSectors disk' =
      (fs.inodes index).dataSectors disk) : Swept fs disk fs' disk' := by
  have xattrLba : ∀ other, (fs'.inodes other).xattrLba = (fs.inodes other).xattrLba := by
    intro other
    by_cases same : other = index
    · have sameXattr := congrArg Inode.xattrLba edited.identity
      rw [same]
      exact sameXattr
    · rw [edited.touched.others other same]
  have worked : Worked (· = index) fs disk fs' disk' := Worked.of_edited edited rfl occupied
  refine ⟨intact.of_worked worked, edited.touched.boot, edited.flags, ?_, ?_⟩
  · intro other inTable
    by_cases same : other = index
    · rw [same]
      unfold Inode.ownedSectors Inode.indirectSectors Inode.xattrSectors
      rw [data, indirectLba, xattrLba index]
    · exact edited.touched.ownedSectors same inTable
  · intro none other inTable
    rw [xattrLba other]
    exact none other inTable

end Swept

section

variable {fs : FsState} {disk : Nat → Sector} {index : Nat}
  (intact : Intact fs disk) (inTable : index < maxInodes)
  (occupied : (fs.inodes index).occupied = true)

include intact inTable occupied

theorem Intact.leaves_checkDirSize (tally : Tally) : Leaves (checkDirSize true index tally) fs disk
    fun outcome fs' disk' =>
      Swept fs disk fs' disk' ∧
      (fs'.inodes index).sizeBytes ≤ 512 * ((fs'.inodes index).dataSectors disk').length ∧
      ∃ tally', outcome = some tally' ∧ tally'.mark = tally.mark := by
  have consistent := intact.consistent
  apply yields_reads_bind
  apply Yields.bind_of_run (consistent.run_inodeByteCapacity inTable)
  apply yields_ite
  · intro _
    apply yields_modify_bind
    apply yields_pure
    let capacity := sectorSize * ((fs.inodes index).dataSectors disk).length
    have edited : Edited index fs disk [] (fs.setInode index
          { fs.inodes index with sizeBytes := capacity }) disk :=
      Edited.of_setInode consistent ⟨rfl, rfl, rfl⟩ rfl
    have isNew := fs.setInode_self index { fs.inodes index with sizeBytes := capacity }
    refine ⟨Swept.of_edited intact edited occupied ?_ ?_, ?_, tally.noteError.noteRepair, rfl, rfl⟩
    · rw [isNew]
    · rw [isNew]
      rfl
    · rw [isNew]
      exact Nat.le_refl _
  · intro small
    apply yields_pure
    exact ⟨Swept.refl intact, Nat.not_lt.mp small, tally, rfl, rfl⟩

omit inTable in
theorem Intact.leaves_writeBack {data : List UInt8}
    (inside : data.length ≤ (fs.inodes index).sizeBytes) (room : (fs.inodes index).sizeBytes ≤
      512 * ((fs.inodes index).dataSectors disk).length) :
    Leaves (fsIndexWrite index 0 data) fs disk fun _ fs' disk' =>
      Swept fs disk fs' disk' := by
  by_cases accepts : fs.Accepts index
  · apply (intact.consistent.leaves_fsIndexWrite_inside accepts (by omega) room).mono
    rintro _ fs' disk' ⟨_, edited, stored⟩
    exact Swept.of_edited intact edited occupied stored.blocks.indirectLba stored.sectors
  · have refused : ¬ (fs.Accepts index ∧ 0 ≤ u32 (0 + data.length)) :=
      fun passed => accepts passed.1
    exact ⟨none, fs, disk, run_fsIndexWrite_refused refused _, Swept.refl intact⟩

omit inTable in
theorem Intact.leaves_checkBlob (room : (fs.inodes index).sizeBytes ≤
      512 * ((fs.inodes index).dataSectors disk).length) (tally : Tally) :
    Leaves (checkBlob true index (dirSize fs disk index) tally) fs disk fun outcome fs' disk' =>
        Swept fs disk fs' disk' ∧
        ∃ tally', outcome = some tally' ∧ tally'.mark = tally.mark := by
  have consistent := intact.consistent
  rw [checkBlob]
  by_cases ready : fs.grants (dirSize fs disk index) ∧ fs.Readable index
  · have read := consistent.run_readBlob ready.1 ready.2
    have looked := (Looked.ask fs).trans (fs.ask.looked_accessed index)
    have swept := Swept.of_looked intact looked
    let blob := (fileBytes fs disk index).take (dirSize fs disk index)
    have blobShort : blob.length ≤ (fs.inodes index).sizeBytes := by
      simp only [blob, List.length_take, fileBytes, List.length_map, List.length_range]
      unfold readableSize
      omega
    apply Yields.attempt_bind_of_run read
    dsimp only
    apply yields_reads_bind
    obtain ⟨sameLength, sameMarks⟩ := checkDirents_spec
      (fs.ask.accessed index) true blob.length blob tally
    have sameSize := looked.sizeBytes index
    have sameData := looked.dataSectors disk index
    have occupiedAfter : ((fs.ask.accessed index).inodes index).occupied = true := by
      rw [Inode.occupied_congr (looked.flags index)]
      exact occupied
    apply yields_whenever_bind
    · intro _
      have writeBack := swept.intact.leaves_writeBack occupiedAfter
        (by rw [sameLength, sameSize]; exact blobShort) (by rw [sameSize, sameData]; exact room)
      obtain ⟨written, fs₂, disk₂, ran, sweptAgain⟩ := writeBack
      refine Yields.bind_of_run (?_ : _ = (some (), fs₂, FlatDisk.running disk₂)) ?_
      · rw [run_attempt_bind]
        exact congrArg (fun reached => (some (), reached.2)) ran
      · apply yields_pure
        exact ⟨swept.trans sweptAgain, _, rfl, sameMarks⟩
    · intro _
      apply yields_pure
      exact ⟨swept, _, rfl, sameMarks⟩
  · apply Yields.attempt_bind (leaves_readBlob_refused ready)
    rintro outcome fs₁ disk₁ ⟨outcomeEq, looked, diskEq⟩
    rw [outcomeEq, diskEq]
    apply yields_pure
    exact ⟨Swept.of_looked intact looked, tally, rfl, rfl⟩

theorem Intact.leaves_checkDirectory (positive : 0 < index) (tally : Tally) :
    Leaves (checkDirectory true index tally) fs disk fun outcome fs' disk' =>
        Swept fs disk fs' disk' ∧
        ∃ tally', outcome = some tally' ∧ tally'.mark = tally.mark := by
  apply (intact.leaves_checkDirSize inTable occupied tally).bind
  · rintro fs' disk' ⟨_, _, _, impossible, _⟩
    cases impossible
  rintro sized fs₁ disk₁ ⟨swept, room, tally', sizedEq, sameMarks⟩
  cases sizedEq
  have valid : validIndex index = true := decide_eq_true ⟨positive, inTable⟩
  have logical := swept.intact.consistent.run_dirLogicalSize index
  rw [if_pos valid] at logical
  apply Yields.bind_of_run logical
  apply yields_ite
  · intro _
    apply yields_pure
    exact ⟨swept, sized, rfl, sameMarks⟩
  · intro _
    have occupiedAfter : (fs₁.inodes index).occupied = true := by
      rw [Inode.occupied_congr (swept.flags index)]
      exact occupied
    apply (swept.intact.leaves_checkBlob occupiedAfter room sized).mono
    rintro outcome fs₂ disk₂ ⟨sweptAgain, last, lastEq, sameAgain⟩
    exact ⟨swept.trans sweptAgain, last, lastEq, sameAgain.trans sameMarks⟩

end

theorem Inode.ownedSectors_of_noXattr {inode : Inode}
    (absent : inode.xattrLba = 0) (disk : Nat → Sector) : inode.ownedSectors disk =
      inode.dataSectors disk ++ inode.indirectSectors := by
  unfold Inode.ownedSectors Inode.xattrSectors
  rw [if_pos absent, List.append_nil]

theorem markIndirect_keeps (fs : FsState) (inode : Inode) (tally : Tally) :
    tally.Keeps (markIndirect fs inode tally) := by
  unfold markIndirect
  split
  · exact tally.markSector_keeps _
  · exact fun _ marked => marked

theorem markIndirect_covers {fs : FsState} {inode : Inode} (tally : Tally)
    (inside : ∀ sector ∈ inode.indirectSectors, sector < fs.boot.totalSectors) :
    (markIndirect fs inode tally).Covers inode.indirectSectors := by
  intro sector member
  have small := inside sector member
  unfold Inode.indirectSectors at member
  split at member
  · cases member
  · rename_i present
    rw [List.mem_singleton.mp member] at small ⊢
    unfold markIndirect
    rw [if_pos ⟨present, small⟩]
    exact tally.markSector_self _

section

variable {fs : FsState} {disk : Nat → Sector}

theorem Intact.leaves_checkInode (intact : Intact fs disk)
    (noXattr : NoXattr fs) {index : Nat} (positive : 0 < index)
    (inTable : index < maxInodes) (tally : Tally) :
    Leaves (checkInode true index tally) fs disk fun outcome fs' disk' =>
      Swept fs disk fs' disk' ∧
      ∃ tally', outcome = some tally' ∧ tally.Keeps tally' ∧ ((fs.inodes index).occupied = true →
          tally'.Covers ((fs.inodes index).ownedSectors disk)) := by
  have consistent := intact.consistent
  apply yields_reads_bind
  apply yields_ite
  · intro occupied
    have counted := (consistent.mappable inTable).run_inodeSectorCount consistent.formatted
    apply Yields.bind_of_run counted
    apply (intact.leaves_checkSectors inTable true _ 0 tally (by omega)).bind
    · rintro fs' disk' ⟨_, _, _, impossible, _⟩
      cases impossible
    rintro walked fs' disk' ⟨fsEq, diskEq, tally', walkedEq, keeps, covers⟩
    cases walkedEq
    rw [fsEq, diskEq]
    rw [List.drop_zero, List.take_length] at covers
    apply yields_reads_bind
    let marked := markIndirect fs (fs.inodes index) walked
    have markedKeeps := markIndirect_keeps fs (fs.inodes index) walked
    have markedCovers : marked.Covers ((fs.inodes index).ownedSectors disk) := by
      rw [Inode.ownedSectors_of_noXattr (noXattr index inTable)]
      intro sector member
      rcases List.mem_append.mp member with inData | inIndirect
      · exact markedKeeps sector (covers sector inData)
      · refine markIndirect_covers walked ?_ sector inIndirect
        intro block blockMember
        exact (consistent.owned.inode_marked inTable block (List.mem_append_right _
          (List.mem_append_left _ blockMember))).2.1
    apply yields_ite
    · intro _
      apply (intact.leaves_checkDirectory inTable occupied positive marked).mono
      rintro outcome fs'' disk'' ⟨swept, last, lastEq, sameMarks⟩
      have lastKeeps : marked.Keeps last := by
        intro sector isMarked
        rw [sameMarks]
        exact isMarked
      exact ⟨swept, last, lastEq, (keeps.trans markedKeeps).trans lastKeeps,
        fun _ => markedCovers.keep lastKeeps⟩
    · intro _
      apply yields_pure
      exact ⟨Swept.refl intact, marked, rfl, keeps.trans markedKeeps, fun _ => markedCovers⟩
  · intro notOccupied
    apply yields_pure
    exact ⟨Swept.refl intact, tally, rfl, fun _ marked => marked,
      fun occupied => absurd occupied notOccupied⟩

theorem leaves_checkInodes : ∀ (numbers : List Nat) {fs : FsState} {disk : Nat → Sector}
    (tally : Tally), Intact fs disk → NoXattr fs →
    (∀ index ∈ numbers, 0 < index ∧ index < maxInodes) →
    Leaves (forInodes (checkInode true) numbers tally) fs disk fun outcome fs' disk' =>
        Swept fs disk fs' disk' ∧
        ∃ tally', outcome = some tally' ∧ tally.Keeps tally' ∧
          ∀ index ∈ numbers, (fs.inodes index).occupied = true →
            tally'.Covers ((fs.inodes index).ownedSectors disk) := by
  intro numbers
  induction numbers with
  | nil =>
    intro fs disk tally intact _ _
    apply yields_pure
    exact ⟨Swept.refl intact, tally, rfl, fun _ marked => marked, nofun⟩
  | cons index rest ih =>
    intro fs disk tally intact noXattr inRange
    obtain ⟨positive, inTable⟩ := inRange index List.mem_cons_self
    apply (intact.leaves_checkInode noXattr positive inTable tally).bind
    · rintro fs' disk' ⟨_, _, impossible, _⟩
      cases impossible
    rintro next fs' disk' ⟨swept, tally', nextEq, keeps, covers⟩
    cases nextEq
    apply (ih next swept.intact (swept.noXattr noXattr) (List.forall_mem_cons.mp inRange).2).mono
    rintro outcome fs'' disk'' ⟨sweptRest, last, lastEq, lastKeeps, restCovers⟩
    refine ⟨swept.trans sweptRest, last, lastEq, keeps.trans lastKeeps, ?_⟩
    intro other member occupied
    rcases List.mem_cons.mp member with isIndex | inRest
    · rw [isIndex] at occupied ⊢
      exact (covers occupied).keep lastKeeps
    · have otherInTable := (inRange other (List.mem_cons_of_mem _ inRest)).2
      rw [← swept.owned other otherInTable]
      apply restCovers other inRest
      rw [Inode.occupied_congr (swept.flags other)]
      exact occupied

/-- Everything in use is marked. -/
def Covered (fs : FsState) (disk : Nat → Sector) (tally : Tally) : Prop :=
  ∀ index, index < maxInodes →
    tally.Covers ((fs.inodes index).ownedSectors disk)

/-- The state between two rounds of the second loop. -/
structure Counted (fs : FsState) (disk : Nat → Sector) (tally : Tally) : Prop where
  intact : Intact fs disk
  noXattr : NoXattr fs
  covered : Covered fs disk tally

theorem Intact.clear (intact : Intact fs disk) {index : Nat} (inTable : index < maxInodes) :
    Intact (clearedState fs disk index) disk := by
  apply intact.of_others (intact.consistent.clear inTable) fun _ => clearedState_other
  · rw [clearedState_self]
    rfl
  · intro _ _
    rw [clearedState_self]
    exact ⟨Inode.cleared_dataSectors _ disk, rfl⟩

theorem Counted.leaves_checkLinks {tally : Tally} (counted : Counted fs disk tally) {index : Nat}
    (inTable : index < maxInodes) :
    Leaves (checkLinks true index tally) fs disk fun outcome fs' disk' =>
      ∃ tally', outcome = some tally' ∧ Counted fs' disk' tally' := by
  have intact := counted.intact
  apply yields_reads_bind
  apply yields_ite
  · intro _
    exact yields_pure ⟨tally, rfl, counted⟩
  intro wrong
  push Not at wrong
  have notRoot : index ≠ rootIno := wrong.2.1
  rw [if_pos rfl]
  apply yields_ite
  · intro _
    apply Yields.bind_of_run (intact.consistent.run_clear inTable)
    apply yields_modify_bind
    apply yields_pure
    let fs' := (clearedState fs disk index).setInode index Inode.zero
    have zeroBlank : Inode.zero.Blank := ⟨rfl, rfl, rfl⟩
    have isZero : fs'.inodes index = Inode.zero := FsState.setInode_self _ index _
    have others : ∀ other, other ≠ index → fs'.inodes other = fs.inodes other := by
      intro other different
      rw [FsState.setInode_other _ _ _ different, clearedState_other different]
    refine ⟨tally.noteError.noteRepair, rfl,
      (intact.clear inTable).setBlank zeroBlank notRoot (Or.inr rfl), ?_, ?_⟩
    · intro other otherInTable
      by_cases same : other = index
      · rw [same, isZero]
        rfl
      · rw [others other same]
        exact counted.noXattr other otherInTable
    · intro other otherInTable
      by_cases same : other = index
      · rw [same, isZero, zeroBlank.ownedSectors disk]
        intro sector member
        cases member
      · rw [others other same]
        exact counted.covered other otherInTable
  · intro _
    apply yields_modify_bind
    apply yields_pure
    let inode : Inode := { fs.inodes index with nlink := tally.links index % 65536 }
    have blocks : ∀ other, ((fs.setInode index inode).inodes other).SameBlocks
          (fs.inodes other) := by
      intro other
      by_cases same : other = index
      · rw [same, FsState.setInode_self]
        exact ⟨rfl, rfl, rfl⟩
      · rw [FsState.setInode_other _ _ _ same]
        exact ⟨rfl, rfl, rfl⟩
    refine ⟨tally.noteError.noteRepair, rfl, intact.setInode ⟨rfl, rfl, rfl⟩ rfl, ?_, ?_⟩
    · intro other otherInTable
      rw [(blocks other).xattrLba]
      exact counted.noXattr other otherInTable
    · intro other otherInTable
      rw [(blocks other).ownedSectors]
      exact counted.covered other otherInTable

theorem leaves_forInodes {body : Nat → Tally → FsProgram Tally} : ∀ (numbers : List Nat)
    (_step : ∀ index ∈ numbers, ∀ {fs : FsState} {disk : Nat → Sector}
      {tally : Tally}, Counted fs disk tally →
        Leaves (body index tally) fs disk fun outcome fs' disk' =>
          ∃ tally', outcome = some tally' ∧ Counted fs' disk' tally')
    {fs : FsState} {disk : Nat → Sector} {tally : Tally},
    Counted fs disk tally → Leaves (forInodes body numbers tally) fs disk fun outcome fs' disk' =>
          ∃ tally', outcome = some tally' ∧ Counted fs' disk' tally' := by
  intro numbers
  induction numbers with
  | nil =>
    intro _ fs disk tally counted
    exact yields_pure ⟨tally, rfl, counted⟩
  | cons index rest ih =>
    intro step fs disk tally counted
    apply (step index List.mem_cons_self counted).bind
    · rintro fs' disk' ⟨_, impossible, _⟩
      cases impossible
    rintro next fs' disk' ⟨tally', nextEq, after⟩
    cases nextEq
    exact ih (List.forall_mem_cons.mp step).2 after

theorem Counted.clearBit {tally : Tally} (counted : Counted fs disk tally)
    {sector : Nat} (unmarked : tally.mark sector = false) :
    Counted (assignBits [sector] false fs) disk tally := by
  have consistent := counted.intact.consistent
  refine ⟨⟨⟨consistent.formatted.assignBits _ _,
    ⟨consistent.owned.exclusive, ?_⟩, consistent.packed⟩,
    counted.intact.unused, counted.intact.zeroth, counted.intact.root⟩,
    counted.noXattr, counted.covered⟩
  intro owner other member
  have before : other ∈ claims fs disk [] owner := member
  obtain ⟨above, below, marked⟩ := consistent.owned.marked owner other before
  have inUse : tally.mark other = true := by
    unfold claims at before
    split at before
    · rename_i inTable
      exact counted.covered owner inTable other before
    · split at before
      · cases before
      · cases before
  have different : other ≠ sector := by
    rintro rfl
    rw [inUse] at unmarked
    cases unmarked
  refine ⟨above, below, ?_⟩
  rw [fsBitmapTest_assignBits _ _ consistent.formatted.bitmap,
    if_neg fun both => different (List.mem_singleton.mp both.2)]
  exact marked

theorem Counted.leaves_rebuildBit {tally : Tally} (counted : Counted fs disk tally) (sector : Nat) :
    Leaves (rebuildBit sector tally) fs disk fun outcome fs' disk' =>
      ∃ tally', outcome = some tally' ∧ Counted fs' disk' tally' := by
  apply yields_reads_bind
  apply yields_ite
  · rintro ⟨unmarked, isSet⟩
    apply yields_modify_bind
    apply yields_pure
    refine ⟨tally.noteRepair, rfl, ?_⟩
    have cleared : Counted (fsBitmapSet sector false fs) disk tally := by
      by_cases inside : sector < fs.boot.totalSectors
      · rw [fsBitmapSet_eq false inside]
        exact counted.clearBit unmarked
      · have same : fsBitmapSet sector false fs = fs := by
          unfold fsBitmapSet
          cases fs.bitmap with
          | none => rfl
          | some bits => exact if_pos (Nat.not_lt.mp inside)
        rw [same]
        exact counted
    exact ⟨cleared.intact, cleared.noXattr, cleared.covered⟩
  · intro _
    exact yields_pure ⟨tally, rfl, counted⟩

theorem mem_inodeNumbers {index : Nat} : index ∈ inodeNumbers ↔ 0 < index ∧ index < maxInodes := by
  unfold inodeNumbers
  rw [List.mem_range'_1]
  change 1 ≤ index ∧ index < 1 + 1023 ↔ 0 < index ∧ index < 1024
  omega

theorem Intact.keeps_fsFsck (intact : Intact fs disk)
    (noXattr : NoXattr fs) : KeepsIntact (fsFsck true) fs disk := by
  apply yields_initialized intact.consistent.formatted.initialized
  by_cases granted : fs.grants fs.boot.totalSectors
  case neg =>
    exact ⟨none, fs.ask, disk, run_bind_of_none (run_malloc_of_not_grants _ _ granted), intact.ask⟩
  apply Yields.bind_of_run (run_malloc_of_grants _ _ granted)
  dsimp only
  apply (leaves_checkInodes inodeNumbers _ intact.ask noXattr fun _ => mem_inodeNumbers.mp).bind
  · rintro fs' disk' ⟨_, _, impossible, _⟩
    cases impossible
  rintro walked fs₁ disk₁ ⟨swept, tally, walkedEq, _, covers⟩
  cases walkedEq
  have noXattrAfter := swept.noXattr noXattr
  have counted : Counted fs₁ disk₁ walked := by
    refine ⟨swept.intact, noXattrAfter, ?_⟩
    intro index inTable
    by_cases occupied : (fs₁.inodes index).occupied = true
    · by_cases first : index = 0
      · rw [first, swept.intact.zeroth] at occupied
        cases occupied
      · rw [swept.owned index inTable]
        apply covers index
        · exact mem_inodeNumbers.mpr ⟨Nat.pos_of_ne_zero first, inTable⟩
        · rw [← Inode.occupied_congr (swept.flags index)]
          exact occupied
    · rw [Bool.not_eq_true] at occupied
      obtain ⟨_, noData, noIndirect⟩ := swept.intact.unused index inTable occupied
      rw [Inode.ownedSectors_of_noXattr (noXattrAfter index inTable)]
      unfold Inode.indirectSectors
      rw [noData, if_pos noIndirect]
      intro sector member
      cases member
  apply (leaves_forInodes inodeNumbers (fun index member _ _ _ before =>
      before.leaves_checkLinks (mem_inodeNumbers.mp member).2)
    counted).bind
  · rintro fs' disk' ⟨_, impossible, _⟩
    cases impossible
  rintro linked fs₂ disk₂ ⟨tally', linkedEq, countedLinks⟩
  cases linkedEq
  rw [if_pos rfl]
  have finished : KeepsIntact (finishRepair linked) fs₂ disk₂ := by
    apply yields_reads_bind
    apply (leaves_forInodes _ (fun sector _ _ _ _ before => before.leaves_rebuildBit sector)
      countedLinks).bind
    · rintro fs' disk' ⟨_, impossible, _⟩
      cases impossible
    rintro rebuilt fs₃ disk₃ ⟨last, _, after⟩
    apply Yields.attempt_bind after.intact.keeps_persist
    intro _ fs₄ disk₄ intact₄
    exact yields_pure intact₄
  apply finished.bind
  intro result fs₃ disk₃ intact₃
  exact intact₃.keeps_pure _

end

end KnitOS.Fs
