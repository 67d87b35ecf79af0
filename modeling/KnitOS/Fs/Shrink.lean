import KnitOS.Fs.Growth
import KnitOS.Lib.Images

/-!
# Shrinking a file

A shrinking file reads the sectors it keeps, frees everything, and writes the
kept sectors to newly allocated ones.
-/

namespace KnitOS.Fs

open Lib Lib.Program Storage

/-- The parts of the kernel that do not change while it is asked. -/
def Kernel.fixed (kernel : Kernel) : Kernel :=
  { kernel with asked := 0 }

/-- What a change to one file leaves alone: the other inodes, and the contents
of the sectors they own. -/
structure Touched (index : Nat) (fs : FsState) (disk : Nat → Sector)
    (fs' : FsState) (disk' : Nat → Sector) : Prop where
  boot : fs'.boot = fs.boot
  initialized : fs'.initialized = fs.initialized
  kernel : fs'.kernel.fixed = fs.kernel.fixed
  others : ∀ other, other ≠ index → fs'.inodes other = fs.inodes other
  sectors : ∀ other, other ≠ index → other < maxInodes →
    ∀ sector ∈ (fs.inodes other).ownedSectors disk, disk' sector = disk sector

namespace Touched

variable {index : Nat} {fs fs' fs'' : FsState}
  {disk disk' disk'' : Nat → Sector}

theorem refl (index : Nat) (fs : FsState) (disk : Nat → Sector) : Touched index fs disk fs disk :=
  ⟨rfl, rfl, rfl, fun _ _ => rfl, fun _ _ _ _ _ => rfl⟩

theorem ownedSectors (touched : Touched index fs disk fs' disk')
    {other : Nat} (different : other ≠ index) (inTable : other < maxInodes) :
    (fs'.inodes other).ownedSectors disk' = (fs.inodes other).ownedSectors disk := by
  rw [touched.others other different]
  exact Inode.ownedSectors_congr (touched.sectors other different inTable)

theorem trans (first : Touched index fs disk fs' disk')
    (second : Touched index fs' disk' fs'' disk'') : Touched index fs disk fs'' disk'' := by
  refine ⟨second.boot.trans first.boot, second.initialized.trans first.initialized,
    second.kernel.trans first.kernel, ?_, ?_⟩
  · intro other different
    exact (second.others other different).trans (first.others other different)
  · intro other different inTable sector member
    have memberAfter : sector ∈ (fs'.inodes other).ownedSectors disk' := by
      rwa [first.ownedSectors different inTable]
    rw [second.sectors other different inTable sector memberAfter,
      first.sectors other different inTable sector member]

end Touched

variable {held : List Nat} {disk disk' : Nat → Sector} {fs : FsState} {index : Nat}

theorem Grown.touched {fs' : FsState}
    (grown : Grown index fs disk fs' disk') (owned : Owned fs disk held)
    (inTable : index < maxInodes) : Touched index fs disk fs' disk' :=
  ⟨grown.boot, grown.initialized, by rw [grown.kernel], grown.others,
    grown.others_sectors owned inTable⟩

theorem Consistent.of_indirect (consistent : Consistent fs disk held)
    (same : ∀ index, index < maxInodes → (fs.inodes index).indirectLba ≠ 0 →
      disk' (fs.inodes index).indirectLba = disk (fs.inodes index).indirectLba) :
    Consistent fs disk' held := by
  have sameClaims : claims fs disk' held = claims fs disk held := by
    funext owner
    unfold claims
    by_cases inTable : owner < maxInodes
    · rw [if_pos inTable, if_pos inTable]
      unfold Inode.ownedSectors
      rw [Inode.dataSectors_congr (same owner inTable)]
    · rw [if_neg inTable, if_neg inTable]
  refine ⟨consistent.formatted, ⟨?_, ?_⟩, ?_⟩
  · rw [sameClaims]
    exact consistent.owned.exclusive
  · rw [sameClaims]
    exact consistent.owned.marked
  · intro index inTable
    rw [Inode.extents_congr (same index inTable)]
    exact consistent.packed index inTable

/-- Sectors that are not indirect blocks: the data sectors of a file, held
sectors, and free sectors. -/
theorem Owned.data_not_indirect (owned : Owned fs disk held) {other : Nat}
    (inTable : index < maxInodes) (otherInTable : other < maxInodes)
    (present : (fs.inodes other).indirectLba ≠ 0) :
    (fs.inodes other).indirectLba ∉ (fs.inodes index).dataSectors disk := by
  intro member
  have isOwned := Inode.mem_ownedSectors_indirect disk present
  by_cases same : index = other
  · subst same
    have nodup := owned.inode_nodup inTable
    unfold Inode.ownedSectors at nodup
    rw [List.nodup_append] at nodup
    exact nodup.2.2 _ member _ (List.mem_append_left _ (Inode.mem_indirectSectors present)) rfl
  · exact owned.inode_apart inTable otherInTable same _ (List.mem_append_left _ member) isOwned

theorem Owned.held_not_indirect (owned : Owned fs disk held) {other : Nat}
    (otherInTable : other < maxInodes)
    (present : (fs.inodes other).indirectLba ≠ 0) : (fs.inodes other).indirectLba ∉ held := by
  intro member
  exact owned.held_apart otherInTable _ member (Inode.mem_ownedSectors_indirect disk present)

section

variable (consistent : Consistent fs disk held) (inTable : index < maxInodes)
  (same : ∀ sector, sector ∉ (fs.inodes index).dataSectors disk → disk' sector = disk sector)

include consistent inTable same

theorem Consistent.write_data : Consistent fs disk' held := by
  apply consistent.of_indirect
  intro other otherInTable present
  apply same
  exact consistent.owned.data_not_indirect inTable otherInTable present

theorem Consistent.dataSectors_write :
    (fs.inodes index).dataSectors disk' = (fs.inodes index).dataSectors disk := by
  apply Inode.dataSectors_congr
  intro present
  apply same
  exact consistent.owned.data_not_indirect inTable inTable present

theorem Consistent.touched_write : Touched index fs disk fs disk' := by
  refine ⟨rfl, rfl, rfl, fun _ _ => rfl, ?_⟩
  intro other different otherInTable sector member
  apply same
  intro inData
  exact consistent.owned.inode_apart otherInTable inTable different sector
    member (List.mem_append_left _ inData)

end

theorem run_dWriteN_from {start : Nat}
    {bytes : Nat → Sector} : ∀ (count first : Nat) (disk : Nat → Sector),
      start + first + count ≤ 4294967296 →
      (forRange (fun index => dWrite (u32 (start + index)) (bytes index))
          first count).run flatDevice fs (.running disk) = (some (), fs, .running (imageAfter disk
            ((List.range' (start + first) count).zip ((List.range' first count).map bytes)))) := by
  intro count
  induction count with
  | zero =>
    intro first disk _
    rfl
  | succ count ih =>
    intro first disk inside
    rw [forRange, run_dWrite_bind, u32_of_lt (by omega), ih (first + 1) _ (by omega),
      List.range'_succ, List.range'_succ, List.map_cons, List.zip_cons_cons, imageAfter_cons]
    rfl

theorem run_dWriteN {start count : Nat}
    {bytes : Nat → Sector} (disk : Nat → Sector) (inside : start + count ≤ 4294967296) :
    (dWriteN start count bytes).run flatDevice fs (.running disk) = (some (), fs,
        .running (imageAfter disk
          ((List.range' start count).zip ((List.range' 0 count).map bytes)))) :=
  run_dWriteN_from count 0 disk (by omega)

theorem run_readSectors (consistent : Consistent fs disk held)
    (inTable : index < maxInodes) : ∀ (count first : Nat),
      first + count ≤ ((fs.inodes index).dataSectors disk).length →
      (readSectors index first count).run flatDevice fs (.running disk) = (some
          (((((fs.inodes index).dataSectors disk).drop first).take
            count).map disk), fs, .running disk) := by
  intro count
  induction count with
  | zero =>
    intro first _
    rw [readSectors, List.take_zero]
    rfl
  | succ count ih =>
    intro first inside
    have within : first < ((fs.inodes index).dataSectors disk).length := by
      omega
    have mapped := (consistent.mappable inTable).run_inodeMapSector consistent.formatted first
    rw [List.getElem?_eq_getElem within] at mapped
    have rest := ih (first + 1) (by omega)
    rw [readSectors, run_inodeAt_bind, run_bind_of_some mapped,
      run_dRead_bind, run_bind_of_some rest,
      List.drop_eq_getElem_cons within, List.take_succ_cons, List.map_cons]
    rfl

theorem run_writeSectors
    (inTable : index < maxInodes) (contents : List Sector) : ∀ {disk : Nat → Sector} (first : Nat),
      Consistent fs disk held → first + contents.length ≤
        ((fs.inodes index).dataSectors disk).length →
      (writeSectors index first contents).run flatDevice fs (.running disk) = (some (), fs,
          .running (imageAfter disk ((((fs.inodes index).dataSectors disk).drop first).zip
              contents))) := by
  induction contents with
  | nil =>
    intro disk first _ _
    rw [List.zip_nil_right]
    rfl
  | cons bytes rest ih =>
    intro disk first consistent inside
    rw [List.length_cons] at inside
    have within : first < ((fs.inodes index).dataSectors disk).length := by
      omega
    have mapped := (consistent.mappable inTable).run_inodeMapSector consistent.formatted first
    rw [List.getElem?_eq_getElem within] at mapped
    let lba := ((fs.inodes index).dataSectors disk)[first]
    have elsewhere : ∀ sector, sector ∉ (fs.inodes index).dataSectors disk →
          Function.update disk lba bytes sector = disk sector := by
      intro sector outside
      apply Function.update_of_ne
      intro same
      exact outside (same ▸ List.getElem_mem within)
    have sameData := consistent.dataSectors_write inTable elsewhere
    have written := ih (first + 1)
      (consistent.write_data inTable elsewhere) (by rw [sameData]; omega)
    rw [sameData] at written
    rw [writeSectors, run_inodeAt_bind, run_bind_of_some mapped,
      run_dWrite_bind, List.drop_eq_getElem_cons within, List.zip_cons_cons, imageAfter_cons]
    exact written

/-- The file system after `inode_clear_extents`. -/
def clearedState (fs : FsState) (disk : Nat → Sector) (index : Nat) : FsState :=
  assignBits
    ((fs.inodes index).dataSectors disk ++ (fs.inodes index).indirectSectors)
    false (fs.setInode index (fs.inodes index).cleared)

section

variable {fs : FsState} {disk : Nat → Sector} {held : List Nat} {index : Nat}

theorem clearedState_self : (clearedState fs disk index).inodes index = (fs.inodes index).cleared :=
  FsState.setInode_self fs index _

theorem clearedState_other {other : Nat} (different : other ≠ index) :
    (clearedState fs disk index).inodes other = fs.inodes other :=
  FsState.setInode_other fs index _ different

theorem Consistent.run_clear (consistent : Consistent fs disk held) (inTable : index < maxInodes) :
    (inodeClearExtents index).run flatDevice fs (.running disk) =
      (some (), clearedState fs disk index, .running disk) := by
  apply run_inodeClearExtents consistent.formatted
  · exact (consistent.mappable inTable).inside
  · intro sector member
    exact (consistent.owned.inode_marked inTable sector
      (List.mem_append_right _ (List.mem_append_left _ member))).2.1

theorem Formatted.setInode (formatted : Formatted fs) (index : Nat)
    (inode : Inode) : Formatted (fs.setInode index inode) :=
  ⟨formatted.boot, formatted.positive, formatted.bounded,
    formatted.initialized, formatted.bitmap, formatted.bitmapSectors⟩

theorem Inode.cleared_extents (inode : Inode) (disk : Nat → Sector) :
    inode.cleared.extents disk = Inode.noExtents := by
  unfold Inode.extents Inode.indirectExtents
  rw [if_pos (show inode.cleared.indirectLba = 0 from rfl), List.append_nil]
  rfl

theorem packed_noExtents : Packed Inode.noExtents := by
  unfold Packed Inode.noExtents
  rw [List.pairwise_replicate]
  exact Or.inr fun nonempty => nonempty

theorem Consistent.clear (consistent : Consistent fs disk held) (inTable : index < maxInodes) :
    Consistent (clearedState fs disk index) disk held := by
  have formatted := consistent.formatted.setInode index (fs.inodes index).cleared
  have released : Owned (fs.setInode index (fs.inodes index).cleared) disk
        (((fs.inodes index).dataSectors disk ++ (fs.inodes index).indirectSectors) ++ held) := by
    refine consistent.owned.exchange inTable rfl (fun _ => rfl)
      (fun other different => fs.setInode_other index _ different) (fun _ _ _ _ _ => rfl) ?_
    rw [FsState.setInode_self]
    unfold Inode.ownedSectors
    rw [Inode.cleared_dataSectors]
    have noIndirect : (fs.inodes index).cleared.indirectSectors = [] := if_pos rfl
    have sameXattr : (fs.inodes index).cleared.xattrSectors = (fs.inodes index).xattrSectors := rfl
    rw [noIndirect, sameXattr, List.perm_iff_count]
    intro sector
    simp only [List.count_append, List.count_nil]
    omega
  refine ⟨formatted.assignBits _ _, released.free formatted, ?_⟩
  apply consistent.packed_of_others fun _ => clearedState_other
  rw [clearedState_self, Inode.cleared_extents]
  exact packed_noExtents

theorem touched_clear : Touched index fs disk (clearedState fs disk index) disk :=
  ⟨rfl, rfl, rfl, fun _ different => clearedState_other different, fun _ _ _ _ _ => rfl⟩

end

/-- The contents of a file, sector by sector. -/
def fileBlocks (fs : FsState) (disk : Nat → Sector) (index : Nat) : List Sector :=
  ((fs.inodes index).dataSectors disk).map disk

/-- A file was rebuilt: everything else is as before, and so are the fields of
its inode other than the extents. -/
structure Rebuilt (index : Nat) (fs : FsState) (disk : Nat → Sector)
    (held : List Nat) (fs' : FsState) (disk' : Nat → Sector) : Prop where
  consistent : Consistent fs' disk' held
  touched : Touched index fs disk fs' disk'
  inode : (fs'.inodes index).cleared = (fs.inodes index).cleared

namespace Rebuilt

variable {index : Nat} {fs fs' fs'' : FsState}
  {disk disk' disk'' : Nat → Sector} {held : List Nat}

theorem trans (first : Rebuilt index fs disk held fs' disk')
    (second : Rebuilt index fs' disk' held fs'' disk'') : Rebuilt index fs disk held fs'' disk'' :=
  ⟨second.consistent, first.touched.trans second.touched, second.inode.trans first.inode⟩

theorem refl (consistent : Consistent fs disk held) (index : Nat) :
    Rebuilt index fs disk held fs disk := ⟨consistent, Touched.refl index fs disk, rfl⟩

end Rebuilt

theorem GrowthStep.rebuilt {fs' : FsState} (step : GrowthStep index fs disk held fs' disk')
    (owned : Owned fs disk held) (inTable : index < maxInodes) :
    Rebuilt index fs disk held fs' disk' :=
  ⟨step.consistent, step.grown.touched owned inTable, step.grown.inode⟩

theorem GrowthStep.data_kept {fs' : FsState} (step : GrowthStep index fs disk held fs' disk')
    (inTable : index < maxInodes) :
    ∀ sector ∈ (fs'.inodes index).dataSectors disk', disk' sector = disk sector := by
  intro sector member
  apply step.grown.written
  intro inIndirect
  have nodup := step.consistent.owned.inode_nodup inTable
  unfold Inode.ownedSectors at nodup
  exact (List.nodup_append.mp nodup).2.2 sector member sector
    (List.mem_append_left _ inIndirect) rfl

/-- There is room for sectors of an empty file, in one run of the bitmap or in
fragments. -/
def Placeable (index count : Nat) (fs : FsState) (disk : Nat → Sector) : Prop :=
  (∃ start, FreeRun fs count start) ∨
    ((inodeGrowSectors index count).run flatDevice fs (.running disk)).1 ≠ none

theorem run_attachRun_noExtents {fs : FsState} {index : Nat}
    (noExtents : (fs.inodes index).direct = Inode.noExtents) (start count : Nat) (flat : FlatDisk) :
    ((attachRun index start count).run flatDevice fs flat).1 = some () := by
  rw [attachRun, run_attempt_bind, inodeAddExtent, run_inodeAt_bind]
  cases inserted : (fs.inodes index).addDirect start count with
  | some added => rfl
  | none =>
    have full := Inode.addDirect_none inserted
    rw [noExtents] at full
    cases full

section

variable {fs : FsState} {disk : Nat → Sector} {held : List Nat} {index : Nat}
  (consistent : Consistent fs disk held) (inTable : index < maxInodes)

include consistent inTable

theorem Consistent.rebuilt_write {disk' : Nat → Sector}
    (same : ∀ sector, sector ∉ (fs.inodes index).dataSectors disk → disk' sector = disk sector) :
    Rebuilt index fs disk held fs disk' := ⟨consistent.write_data inTable same,
    consistent.touched_write inTable same, rfl⟩

theorem Consistent.rebuilt_clear :
    Rebuilt index fs disk held (clearedState fs disk index) disk := by
  refine ⟨consistent.clear inTable, touched_clear, ?_⟩
  rw [clearedState_self]
  rfl

theorem run_placeFragmented (empty : (fs.inodes index).dataSectors disk = []) (kept : List Sector) :
    ∃ outcome fs' disk', (placeFragmented index kept).run flatDevice fs (.running disk) =
        (outcome, fs', .running disk') ∧ Rebuilt index fs disk held fs' disk' ∧
      (outcome = some () → fileBlocks fs' disk' index = kept) ∧
      (((inodeGrowSectors index kept.length).run flatDevice fs
        (.running disk)).1 ≠ none → outcome = some ()) := by
  obtain ⟨grew, middle, middleDisk, grown, step, _, reached⟩ :=
    run_inodeGrowSectors consistent inTable kept.length
  have rebuilt := step.rebuilt consistent.owned inTable
  rw [placeFragmented]
  cases grew with
  | none =>
    refine ⟨none, middle, middleDisk, run_bind_of_none grown, rebuilt, nofun, ?_⟩
    rw [grown]
    exact fun possible => absurd rfl possible
  | some done =>
    have length := reached rfl
    rw [empty, List.length_nil, Nat.max_zero] at length
    let data := (middle.inodes index).dataSectors middleDisk
    have written := run_writeSectors inTable kept 0 step.consistent (by omega)
    rw [List.drop_zero] at written
    let final := imageAfter middleDisk (data.zip kept)
    have elsewhere : ∀ sector, sector ∉ data → final sector = middleDisk sector := by
      intro sector outside
      exact imageAfter_zip_of_not_mem middleDisk outside
    refine ⟨some (), middle, final, ?_,
      rebuilt.trans (step.consistent.rebuilt_write inTable elsewhere), ?_, fun _ => rfl⟩
    · rw [run_bind_of_some grown]
      exact written
    · intro _
      unfold fileBlocks
      rw [step.consistent.dataSectors_write inTable elsewhere]
      exact map_imageAfter_zip data kept middleDisk (step.consistent.mappable inTable).nodup length

theorem run_placeContiguous (empty : (fs.inodes index).dataSectors disk = [])
    {start : Nat} {kept : List Sector} (nonempty : kept.length ≠ 0)
    (above : fs.base ≤ start)
    (below : start + kept.length ≤ fs.boot.totalSectors)
    (free : ∀ sector ∈ List.range' start kept.length, fsBitmapTest fs sector = false) :
    let marked := assignBits (List.range' start kept.length) true fs
    ∃ outcome fs' disk', (placeContiguous index start kept).run flatDevice marked (.running disk) =
        (outcome, fs', .running disk') ∧
      Rebuilt index fs disk held fs' disk' ∧
      (outcome = some () → fileBlocks fs' disk' index = kept) ∧
      ((fs.inodes index).direct = Inode.noExtents → outcome = some ()) := by
  intro marked
  have formatted := consistent.formatted
  have bounded := formatted.bounded
  let run := List.range' start kept.length
  let final := imageAfter disk (run.zip kept)
  have elsewhere : ∀ sector, sector ∉ run → final sector = disk sector := by
    intro sector outside
    exact imageAfter_zip_of_not_mem disk outside
  have readBack : (List.range' 0 kept.length).map
        (fun position => kept.getD position fun _ => 0) = kept := by
    apply List.ext_getElem
    · simp
    · intro position _ inside
      simp [inside]
  have written :
      (dWriteN start kept.length fun position =>
          kept.getD position fun _ => 0).run flatDevice marked
          (.running disk) =
        (some (), marked, .running final) := by
    rw [run_dWriteN disk (by omega), readBack]
  have inside : ∀ sector ∈ run, fs.base ≤ sector ∧ sector < fs.boot.totalSectors := by
    intro sector member
    rw [List.mem_range'_1] at member
    omega
  have heldRun : Owned marked disk (run ++ held) :=
    consistent.owned.alloc formatted (List.nodup_range' 1) inside free
  have markedConsistent : Consistent marked disk (run ++ held) :=
    ⟨formatted.assignBits _ _, heldRun, consistent.packed⟩
  have writtenConsistent : Consistent marked final (run ++ held) := by
    apply markedConsistent.of_indirect
    intro other otherInTable present
    apply elsewhere
    intro member
    exact heldRun.held_not_indirect otherInTable present (List.mem_append_left _ member)
  have markedElsewhere : ∀ sector, fsBitmapTest fs sector = true → final sector = disk sector := by
    intro sector isMarked
    apply elsewhere
    intro member
    rw [free sector member] at isMarked
    cases isMarked
  have touchedMarked : Touched index fs disk marked final := by
    refine ⟨rfl, rfl, rfl, fun _ _ => rfl, ?_⟩
    intro other _ otherInTable sector member
    exact markedElsewhere sector (consistent.owned.inode_marked otherInTable sector member).2.2
  have ready : AddReady marked final held index start kept.length :=
    ⟨writtenConsistent, inTable, nonempty⟩
  rw [placeContiguous, run_attempt_bind, written]
  rcases run_attachRun formatted below free ready with failed | ⟨fs', disk', added, result⟩
  · refine ⟨none, fs, final, failed, ⟨?_, ?_, rfl⟩, nofun, ?_⟩
    · apply consistent.of_indirect
      intro other otherInTable present
      apply markedElsewhere
      exact (consistent.owned.inode_marked otherInTable _
        (Inode.mem_ownedSectors_indirect disk present)).2.2
    · exact ⟨rfl, rfl, rfl, fun _ _ => rfl, touchedMarked.sectors⟩
    · intro noExtents
      have added := @run_attachRun_noExtents marked index noExtents
        start kept.length (.running final)
      rw [failed] at added
      cases added
  · obtain ⟨owned, grown, attached⟩ := result
    have sameData : (marked.inodes index).dataSectors final = [] := by
      have same : (fs.inodes index).dataSectors final = (fs.inodes index).dataSectors disk := by
        apply Inode.dataSectors_congr
        intro present
        apply markedElsewhere
        exact (consistent.owned.inode_marked inTable _
          (Inode.mem_ownedSectors_indirect disk present)).2.2
      exact same.trans empty
    have newData : (fs'.inodes index).dataSectors disk' = run := by
      obtain ⟨before, after, split, joined, _⟩ := attached.inserted
      rw [sameData] at split
      obtain ⟨noBefore, noAfter⟩ := List.append_eq_nil_iff.mp split.symm
      rw [joined, noBefore, noAfter, List.nil_append, List.append_nil]
    refine ⟨some (), fs', disk', added, ⟨ready.consistent_of_result ⟨owned, grown, attached⟩,
        touchedMarked.trans (grown.touched writtenConsistent.owned inTable),
        grown.inode⟩, ?_, fun _ => rfl⟩
    · intro _
      have kept_ : ∀ sector ∈ run, disk' sector = final sector := by
        intro sector member
        apply grown.sectors (heldRun.held_marked sector (List.mem_append_left _ member)).2.2
        intro inIndirect
        exact heldRun.held_apart inTable sector (List.mem_append_left _ member)
          (List.mem_append_right _ (List.mem_append_left _ inIndirect))
      unfold fileBlocks
      rw [newData, List.map_congr_left kept_]
      exact map_imageAfter_zip run kept disk (List.nodup_range' 1) List.length_range'

omit inTable in
theorem Consistent.rebuilt_ask : Rebuilt index fs disk held fs.ask disk :=
  ⟨consistent.ask, ⟨rfl, rfl, rfl, fun _ _ => rfl, fun _ _ _ _ _ => rfl⟩, rfl⟩

theorem run_placeKept (empty : (fs.inodes index).dataSectors disk = [])
    {kept : List Sector} (nonempty : kept.length ≠ 0) : ∃ outcome fs' disk',
      (attempt (fsAllocBlocks kept.length) >>= placeKept index kept).run
          flatDevice fs (.running disk) = (outcome, fs', .running disk') ∧
      Rebuilt index fs disk held fs' disk' ∧
      (outcome = some () → fileBlocks fs' disk' index = kept) ∧
      ((fs.inodes index).direct = Inode.noExtents →
        Placeable index kept.length fs disk → outcome = some ()) := by
  rw [run_attempt_bind]
  rcases fsAllocBlocks_cases consistent.formatted nonempty (.running disk) with
    ⟨missing, failed⟩ | ⟨start, ⟨⟨above, below, free⟩, _⟩, allocated⟩
  · rw [failed]
    obtain ⟨outcome, fs', disk', ran, rebuilt, contents, succeeds⟩ :=
      run_placeFragmented consistent inTable empty kept
    refine ⟨outcome, fs', disk', ran, rebuilt, contents, ?_⟩
    intro _ placeable
    exact succeeds (placeable.resolve_left fun ⟨start, free⟩ => missing start free)
  · rw [allocated]
    obtain ⟨outcome, fs', disk', ran, rebuilt, contents, succeeds⟩ :=
      run_placeContiguous consistent inTable empty nonempty above below free
    exact ⟨outcome, fs', disk', ran, rebuilt, contents, fun noExtents _ => succeeds noExtents⟩

/-- `inode_shrink_to` keeps the first sectors of the file, or fails.  Without
memory it fails early; later it does not if there is room for the sectors once
those of the file are free. -/
theorem run_inodeShrinkTo (needSecs : Nat) : ∃ outcome fs' disk',
    (inodeShrinkTo index needSecs).run flatDevice fs (.running disk) =
      (outcome, fs', .running disk') ∧ Rebuilt index fs disk held fs' disk' ∧ (outcome = some () →
      fileBlocks fs' disk' index = (fileBlocks fs disk index).take needSecs) ∧
    ((fs.grants (u32 (needSecs * sectorSize)) →
        Placeable index needSecs (clearedState fs.ask disk index) disk) → outcome = none →
        (needSecs ≠ 0 ∧ ¬ fs.grants (u32 (needSecs * sectorSize))) ∧
          fs' = fs.ask ∧ disk' = disk) := by
  have formatted := consistent.formatted
  have counted := (consistent.mappable inTable).run_inodeSectorCount formatted
  rw [inodeShrinkTo, run_inodeAt_bind, run_bind_of_some counted]
  by_cases fits : ((fs.inodes index).dataSectors disk).length ≤ needSecs
  · rw [if_pos fits]
    refine ⟨some (), fs, disk, rfl, Rebuilt.refl consistent index, ?_, nofun⟩
    intro _
    unfold fileBlocks
    rw [List.take_of_length_le (by rw [List.length_map]; exact fits)]
  · rw [if_neg fits]
    by_cases nothing : needSecs = 0
    · rw [if_pos nothing]
      refine ⟨some (), _, disk, consistent.run_clear inTable, consistent.rebuilt_clear inTable, ?_,
        nofun⟩
      intro _
      unfold fileBlocks
      rw [clearedState_self, Inode.cleared_dataSectors, nothing]
      rfl
    · rw [if_neg nothing]
      by_cases granted : fs.grants (u32 (needSecs * sectorSize))
      · rw [run_bind_of_some (run_malloc_of_grants _ _ granted)]
        have asked := consistent.ask
        have kept := run_readSectors asked inTable needSecs 0 (by
          change 0 + needSecs ≤ ((fs.inodes index).dataSectors disk).length
          omega)
        rw [List.drop_zero] at kept
        rw [run_bind_of_some kept, run_bind_of_some (asked.run_clear inTable)]
        let keptBlocks := (((fs.ask.inodes index).dataSectors disk).take needSecs).map disk
        have keptLength : keptBlocks.length = needSecs := by
          simp only [keptBlocks, List.length_map, List.length_take]
          change min needSecs ((fs.inodes index).dataSectors disk).length = _
          omega
        have clearedEmpty : ((clearedState fs.ask disk index).inodes index).dataSectors
              disk = [] := by
          rw [clearedState_self, Inode.cleared_dataSectors]
        obtain ⟨outcome, fs', disk', placed, rebuilt, contents, succeeds⟩ :=
          run_placeKept (asked.clear inTable) inTable clearedEmpty
            (by omega : keptBlocks.length ≠ 0)
        rw [keptLength] at placed succeeds
        have noExtents : ((clearedState fs.ask disk index).inodes
            index).direct = Inode.noExtents := by
          rw [clearedState_self]
          rfl
        have whole : Rebuilt index fs disk held fs' disk' := (consistent.rebuilt_ask.trans
          (asked.rebuilt_clear inTable)).trans rebuilt
        have sameContents : keptBlocks = (fileBlocks fs disk index).take needSecs := by
          simp only [keptBlocks, fileBlocks, List.map_take]
          rfl
        refine ⟨outcome, fs', disk', ?_, whole, ?_, ?_⟩
        · rw [← run_bind_assoc]
          cases outcome with
          | none => exact run_bind_of_none placed
          | some done => rw [run_bind_of_some placed, run_cacheSync]
        · intro succeeded
          rw [contents succeeded, sameContents]
        · intro placeable failed
          rw [succeeds noExtents (placeable granted)] at failed
          cases failed
      · rw [run_bind_of_none (run_malloc_of_not_grants _ _ granted)]
        exact ⟨none, fs.ask, disk, rfl, consistent.rebuilt_ask,
          nofun, fun _ _ => ⟨⟨nothing, granted⟩, rfl, rfl⟩⟩

end

end KnitOS.Fs
