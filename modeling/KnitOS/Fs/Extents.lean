import KnitOS.Fs.Bitmap
import Mathlib.Data.List.Perm.Subperm

/-!
# Extents as lists of sectors

An extent stands for a run of sectors, and a file for the sectors of all its
extents in order.  Counting, mapping and freeing the sectors of a file are
read off that list.
-/

namespace KnitOS.Fs

open Lib.Program Storage

def Extent.sectors (extent : Extent) : List Nat :=
  List.range' extent.lba extent.count

def extentSectors (extents : List Extent) : List Nat :=
  extents.flatMap Extent.sectors

@[simp]
theorem extentSectors_nil : extentSectors [] = [] := rfl

@[simp]
theorem extentSectors_cons (extent : Extent) (rest : List Extent) :
    extentSectors (extent :: rest) = extent.sectors ++ extentSectors rest := rfl

@[simp]
theorem extentSectors_append (first second : List Extent) : extentSectors (first ++ second) =
      extentSectors first ++ extentSectors second := List.flatMap_append

@[simp]
theorem Extent.sectors_length (extent : Extent) : extent.sectors.length = extent.count :=
  List.length_range'

theorem extentSectors_replicate_empty (count lba : Nat) :
    extentSectors (List.replicate count ⟨lba, 0⟩) = [] := by
  induction count with
  | zero => rfl
  | succ count ih =>
    rw [List.replicate_succ, extentSectors_cons, ih]
    rfl

theorem Extent.end_le {extent : Extent} {limit : Nat}
    (inside : ∀ sector ∈ extent.sectors, sector < limit) (nonempty : extent.count ≠ 0) :
    extent.lba + extent.count ≤ limit := by
  have lastInside : extent.lba + (extent.count - 1) < limit :=
    inside _ (List.mem_range'_1.mpr (by omega))
  omega

/-- The sector numbers of an extent that `inode_map_sector` looks at. -/
def Extent.mapped (limit : Nat) (extent : Extent) : List Nat :=
  (List.range (extentCountSane limit extent.count)).map
    fun position => u32 (extent.lba + position)

/-- The sector numbers of a file, in the order of `inode_map_sector`. -/
def mappedSectors (limit : Nat) (extents : List Extent) : List Nat :=
  extents.flatMap (Extent.mapped limit)

section

variable {limit : Nat}

theorem mappedSectors_cons (extent : Extent) (rest : List Extent) :
    mappedSectors limit (extent :: rest) = extent.mapped limit ++ mappedSectors limit rest := rfl

theorem mappedSectors_append (first second : List Extent) : mappedSectors limit (first ++ second) =
      mappedSectors limit first ++ mappedSectors limit second := List.flatMap_append

theorem length_mapped (extent : Extent) :
    (extent.mapped limit).length = extentCountSane limit extent.count := by
  rw [Extent.mapped, List.length_map, List.length_range]

theorem mapped_of_empty {extent : Extent} (empty : extent.count = 0) :
    extent.mapped limit = [] := by
  have none : extentCountSane limit 0 = 0 := by
    unfold extentCountSane
    split
    · rfl
    · rfl
  rw [Extent.mapped, empty, none]
  rfl

theorem mappedSectors_of_empty {extents : List Extent}
    (empty : ∀ extent ∈ extents, extent.count = 0) : mappedSectors limit extents = [] := by
  rw [mappedSectors, List.flatMap_eq_nil_iff]
  intro extent member
  exact mapped_of_empty (empty extent member)

theorem countExtents_mapped (extents : List Extent) : ∀ {total : Nat}, total ≤ limit →
    countExtents limit total extents =
      if total + (mappedSectors limit extents).length ≤ limit then
        some (total + (mappedSectors limit extents).length)
      else none := by
  induction extents with
  | nil =>
    intro total small
    exact (if_pos small).symm
  | cons extent rest ih =>
    intro total small
    have sane : extentCountSane limit extent.count ≤ limit := by
      unfold extentCountSane
      split
      · exact Nat.zero_le _
      · omega
    rw [countExtents, mappedSectors_cons, List.length_append, length_mapped]
    by_cases beyond : limit - extentCountSane limit extent.count < total
    · rw [if_pos beyond, if_neg (by omega)]
    · rw [if_neg beyond, ih (by omega), Nat.add_assoc]

theorem mapExtents_mapped (extents : List Extent) : ∀ {left : Nat}, mapExtents limit left extents =
    match (mappedSectors limit extents)[left]? with
    | some lba => .found lba
    | none => .left (left - (mappedSectors limit extents).length) := by
  induction extents with
  | nil =>
    intro left
    simp [mapExtents, mappedSectors]
  | cons extent rest ih =>
    intro left
    rw [mapExtents, mappedSectors_cons]
    by_cases here : left < extentCountSane limit extent.count
    · have mapped : (extent.mapped limit ++ mappedSectors limit rest)[left]? =
            some (u32 (extent.lba + left)) := by
        rw [List.getElem?_append_left (by rwa [length_mapped])]
        simp [Extent.mapped, here]
      rw [if_pos ⟨by omega, here⟩, mapped]
    · have mapped : (extent.mapped limit ++ mappedSectors limit rest)[left]? =
            (mappedSectors limit rest)[ left - extentCountSane limit extent.count]? := by
        rw [List.getElem?_append_right (by rw [length_mapped]; omega), length_mapped]
      rw [if_neg (fun found => here found.2), mapped, ih,
        List.length_append, length_mapped, Nat.sub_add_eq]

end

theorem mappedSectors_eq {limit : Nat} (extents : List Extent)
    (short : (extentSectors extents).length ≤ limit)
    (inside : ∀ sector ∈ extentSectors extents, sector < 4294967296) :
    mappedSectors limit extents = extentSectors extents := by
  induction extents with
  | nil => rfl
  | cons extent rest ih =>
    rw [extentSectors_cons, List.length_append, Extent.sectors_length] at short
    rw [extentSectors_cons] at inside
    have sane : extentCountSane limit extent.count = extent.count := if_neg (by omega)
    have head : extent.mapped limit = extent.sectors := by
      rw [Extent.mapped, sane, Extent.sectors, List.range'_eq_map_range]
      refine List.map_congr_left fun position within => ?_
      have less := List.mem_range.mp within
      refine u32_of_lt (inside _ (List.mem_append_left _ ?_))
      exact List.mem_range'_1.mpr (by omega)
    rw [mappedSectors_cons, extentSectors_cons, head,
      ih (by omega) fun sector member =>
        inside sector (List.mem_append_right _ member)]

def extentWords (extents : List Extent) : List Nat :=
  extents.flatMap fun extent => [extent.lba, extent.count]

theorem extentWords_length (extents : List Extent) :
    (extentWords extents).length = 2 * extents.length := by
  induction extents with
  | nil => rfl
  | cons extent rest ih =>
    simp only [extentWords, List.flatMap_cons, List.length_append,
      List.length_cons, List.length_nil] at ih ⊢
    omega

theorem extentWords_getD (extents : List Extent) :
    ∀ {index : Nat} (inside : index < extents.length),
      (extentWords extents).getD (2 * index) 0 = extents[index].lba ∧
        (extentWords extents).getD (2 * index + 1) 0 = extents[index].count := by
  induction extents with
  | nil =>
    intro index inside
    exact absurd inside (Nat.not_lt_zero index)
  | cons extent rest ih =>
    intro index inside
    cases index with
    | zero => exact ⟨rfl, rfl⟩
    | succ index => exact ih (Nat.lt_of_succ_lt_succ inside)

theorem decodeExtents_encodeExtents {extents : List Extent} (full : extents.length = indirectMax)
    (small : ∀ extent ∈ extents, extent.lba < 4294967296 ∧ extent.count < 4294967296) :
    decodeExtents (encodeExtents extents) = extents := by
  have sixtyFour : extents.length = 64 := full
  have words := extentWords_length extents
  apply List.ext_getElem
  · rw [decodeExtents, List.length_map, List.length_range, full]
  · intro index decodedInside inside
    obtain ⟨lbaSmall, countSmall⟩ := small extents[index] (List.getElem_mem inside)
    obtain ⟨lbaAt, countAt⟩ := extentWords_getD extents inside
    have lbaInside : 2 * index < (extentWords extents).length := by omega
    have countInside : 2 * index + 1 < (extentWords extents).length := by
      omega
    have lbaWord := wordAt_sectorOf (extentWords extents) [] lbaInside (by omega)
    have countWord := wordAt_sectorOf (extentWords extents) [] countInside (by omega)
    rw [lbaAt, u32_of_lt lbaSmall, List.append_nil] at lbaWord
    rw [countAt, u32_of_lt countSmall, List.append_nil] at countWord
    have lbaOffset : 4 * (2 * index) = 8 * index := by omega
    have countOffset : 4 * (2 * index + 1) = 8 * index + 4 := by omega
    rw [lbaOffset] at lbaWord
    rw [countOffset] at countWord
    simp only [decodeExtents, List.getElem_map, List.getElem_range]
    unfold encodeExtents
    rw [show (extents.flatMap fun extent => [extent.lba, extent.count]) =
      extentWords extents from rfl, lbaWord, countWord]

namespace Inode

def indirectExtents (inode : Inode) (disk : Nat → Sector) : List Extent :=
  if inode.indirectLba = 0 then [] else decodeExtents (disk inode.indirectLba)

def dataSectors (inode : Inode) (disk : Nat → Sector) : List Nat :=
  extentSectors inode.direct ++ extentSectors (inode.indirectExtents disk)

def extents (inode : Inode) (disk : Nat → Sector) : List Extent :=
  inode.direct ++ inode.indirectExtents disk

theorem extentSectors_extents (inode : Inode) (disk : Nat → Sector) :
    extentSectors (inode.extents disk) = inode.dataSectors disk := extentSectors_append _ _

def indirectSectors (inode : Inode) : List Nat :=
  if inode.indirectLba = 0 then [] else [inode.indirectLba]

def xattrSectors (inode : Inode) : List Nat :=
  if inode.xattrLba = 0 then [] else [inode.xattrLba]

def ownedSectors (inode : Inode) (disk : Nat → Sector) : List Nat :=
  inode.dataSectors disk ++ (inode.indirectSectors ++ inode.xattrSectors)

theorem indirectExtents_congr {inode : Inode} {disk disk' : Nat → Sector}
    (same : inode.indirectLba ≠ 0 → disk' inode.indirectLba = disk inode.indirectLba) :
    inode.indirectExtents disk' = inode.indirectExtents disk := by
  unfold indirectExtents
  by_cases none : inode.indirectLba = 0
  · rw [if_pos none, if_pos none]
  · rw [if_neg none, if_neg none, same none]

theorem dataSectors_congr {inode : Inode} {disk disk' : Nat → Sector}
    (same : inode.indirectLba ≠ 0 → disk' inode.indirectLba = disk inode.indirectLba) :
    inode.dataSectors disk' = inode.dataSectors disk := by
  rw [dataSectors, indirectExtents_congr same]
  rfl

theorem extents_congr {inode : Inode} {disk disk' : Nat → Sector}
    (same : inode.indirectLba ≠ 0 → disk' inode.indirectLba = disk inode.indirectLba) :
    inode.extents disk' = inode.extents disk := by
  rw [extents, indirectExtents_congr same]
  rfl

theorem mem_indirectSectors {inode : Inode} (present : inode.indirectLba ≠ 0) :
    inode.indirectLba ∈ inode.indirectSectors := by
  rw [indirectSectors, if_neg present]
  exact List.mem_cons_self

theorem mem_ownedSectors_indirect {inode : Inode} (disk : Nat → Sector)
    (present : inode.indirectLba ≠ 0) : inode.indirectLba ∈ inode.ownedSectors disk :=
  List.mem_append_right _ (List.mem_append_left _ (mem_indirectSectors present))

def cleared (inode : Inode) : Inode :=
  { inode with
    direct := noExtents
    indirectLba := 0
    direct_length := noExtents_length }

theorem cleared_dataSectors (inode : Inode) (disk : Nat → Sector) :
    inode.cleared.dataSectors disk = [] := by
  unfold dataSectors indirectExtents cleared noExtents
  rw [if_pos rfl, extentSectors_replicate_empty]
  rfl

end Inode

section

variable {fs : FsState} (positive : 0 < fs.boot.totalSectors)

include positive

theorem FsState.maxSectors_eq : fs.maxSectors = fs.boot.totalSectors := if_neg positive.ne'

theorem run_inodeSectorCount_mapped (inode : Inode) (disk : Nat → Sector) :
    (inodeSectorCount inode).run flatDevice fs (.running disk) = (some (min fs.boot.totalSectors
        (mappedSectors fs.boot.totalSectors (inode.extents disk)).length), fs, .running disk) := by
  unfold Inode.extents
  rw [inodeSectorCount, run_reads_bind, FsState.maxSectors_eq positive,
    countExtents_mapped inode.direct (Nat.zero_le _), Nat.zero_add,
    mappedSectors_append, List.length_append]
  by_cases small : (mappedSectors fs.boot.totalSectors inode.direct).length ≤ fs.boot.totalSectors
  · rw [if_pos small]
    by_cases none : inode.indirectLba = 0
    · have noIndirect : inode.indirectExtents disk = [] := if_pos none
      simp only [if_pos none, noIndirect]
      rw [run_pure, show mappedSectors fs.boot.totalSectors [] = [] from rfl,
        List.length_nil, Nat.add_zero, Nat.min_eq_right small]
    · have indirect : inode.indirectExtents disk =
        decodeExtents (disk inode.indirectLba) := if_neg none
      simp only [if_neg none, indirect]
      unfold readIndirect
      simp only [run_bind, run_attempt, run_dRead, run_pure, Option.elim_some,
        countExtents_mapped (decodeExtents (disk inode.indirectLba)) small]
      split
      · rename_i fits
        rw [Option.getD_some, Nat.min_eq_right fits]
      · rw [Option.getD_none, Nat.min_eq_left (by omega)]
  · rw [if_neg small]
    simp only [run_pure]
    rw [Nat.min_eq_left (by omega)]

theorem run_inodeMapSector_mapped (inode : Inode) (disk : Nat → Sector) (fileSector : Nat) :
    (inodeMapSector inode fileSector).run flatDevice fs (.running disk) =
      ((mappedSectors fs.boot.totalSectors (inode.extents disk))[fileSector]?.filter
          (· < fs.boot.totalSectors), fs, .running disk) := by
  have checked : ∀ lba, (checkedSector lba).run flatDevice fs (.running disk) =
        ((some lba).filter (· < fs.boot.totalSectors), fs, .running disk) := by
    intro lba
    rw [checkedSector, run_reads_bind]
    by_cases inside : lba < fs.boot.totalSectors
    · rw [require_of (Or.inr inside), Option.filter_some, if_pos (decide_eq_true inside)]
      rfl
    · rw [require_of_not (by omega), Option.filter_some, if_neg (by simpa using inside)]
      rfl
  unfold Inode.extents
  rw [inodeMapSector, run_reads_bind, FsState.maxSectors_eq positive,
    mapExtents_mapped inode.direct, mappedSectors_append]
  cases directAt : (mappedSectors fs.boot.totalSectors inode.direct)[fileSector]? with
  | some lba =>
    obtain ⟨within, _⟩ := List.getElem?_eq_some_iff.mp directAt
    rw [List.getElem?_append_left within, directAt]
    exact checked lba
  | none =>
    have beyond := List.getElem?_eq_none_iff.mp directAt
    rw [List.getElem?_append_right beyond]
    by_cases none : inode.indirectLba = 0
    · have noIndirect : inode.indirectExtents disk = [] := if_pos none
      rw [noIndirect]
      simp only
      rw [require_of_not (by simp [none])]
      rfl
    · have indirect : inode.indirectExtents disk =
        decodeExtents (disk inode.indirectLba) := if_neg none
      rw [indirect]
      simp only [require_of none, run_pure_bind, run_dRead_bind,
        mapExtents_mapped (decodeExtents (disk inode.indirectLba))]
      cases indirectAt : (mappedSectors fs.boot.totalSectors
        (decodeExtents (disk inode.indirectLba)))[fileSector -
          (mappedSectors fs.boot.totalSectors inode.direct).length]? with
      | some lba => exact checked lba
      | none => rfl

end

/-- The data sectors of an inode are distinct sectors of the disk. -/
structure Mappable (fs : FsState) (inode : Inode) (disk : Nat → Sector) : Prop where
  nodup : (inode.dataSectors disk).Nodup
  inside : ∀ sector ∈ inode.dataSectors disk, sector < fs.boot.totalSectors

namespace Mappable

variable {fs : FsState} {inode : Inode} {disk : Nat → Sector}

theorem length_le (mappable : Mappable fs inode disk) :
    (inode.dataSectors disk).length ≤ fs.boot.totalSectors := by
  have subset : inode.dataSectors disk ⊆ List.range fs.boot.totalSectors := by
    intro sector member
    exact List.mem_range.mpr (mappable.inside sector member)
  have shorter := (mappable.nodup.subperm subset).length_le
  rwa [List.length_range] at shorter

theorem mappedSectors_eq (formatted : Formatted fs) (mappable : Mappable fs inode disk) :
    mappedSectors fs.boot.totalSectors (inode.extents disk) = inode.dataSectors disk := by
  have bounded := formatted.bounded
  have short := mappable.length_le
  have inside := mappable.inside
  rw [← Inode.extentSectors_extents] at short inside ⊢
  refine Fs.mappedSectors_eq _ short fun sector member => ?_
  have below := inside sector member
  omega

theorem run_inodeSectorCount (formatted : Formatted fs) (mappable : Mappable fs inode disk) :
    (inodeSectorCount inode).run flatDevice fs (.running disk) =
      (some (inode.dataSectors disk).length, fs, .running disk) := by
  rw [run_inodeSectorCount_mapped formatted.positive,
    mappable.mappedSectors_eq formatted, Nat.min_eq_right mappable.length_le]

theorem run_inodeMapSector (formatted : Formatted fs)
    (mappable : Mappable fs inode disk) (fileSector : Nat) :
    (inodeMapSector inode fileSector).run flatDevice fs (.running disk) =
      ((inode.dataSectors disk)[fileSector]?, fs, .running disk) := by
  rw [run_inodeMapSector_mapped formatted.positive, mappable.mappedSectors_eq formatted]
  congr 1
  cases found : (inode.dataSectors disk)[fileSector]? with
  | none => rfl
  | some lba =>
    have inside := mappable.inside lba (List.mem_of_getElem? found)
    rw [Option.filter_some, if_pos (decide_eq_true inside)]

end Mappable

theorem run_freeExtents (fs : FsState) (extents : List Extent)
    (small : fs.boot.totalSectors < 4294967296) (flat : FlatDisk) : ∀ (freed : List Nat),
      (∀ sector ∈ extentSectors extents, sector < fs.boot.totalSectors) →
      (freeExtents extents).run flatDevice (assignBits freed false fs) flat =
        (some (), assignBits (freed ++ extentSectors extents) false fs, flat) := by
  induction extents with
  | nil =>
    intro freed _
    rw [extentSectors_nil, List.append_nil]
    rfl
  | cons extent rest ih =>
    intro freed inside
    have restInside : ∀ sector ∈ extentSectors rest, sector < fs.boot.totalSectors := by
      intro sector member
      exact inside sector (List.mem_append_right _ member)
    rw [freeExtents, extentSectors_cons]
    by_cases empty : extent.count = 0
    · have noSectors : extent.sectors = [] := by
        rw [Extent.sectors, empty]
        rfl
      rw [noSectors, List.nil_append, ← ih freed restInside]
      simp [whenever, empty]
    · have headInside : extent.lba + extent.count ≤ fs.boot.totalSectors := by
        refine Extent.end_le ?_ empty
        intro sector member
        exact inside sector (List.mem_append_left _ member)
      have freedRun : freeBlocks extent.lba extent.count (assignBits freed false fs) =
            assignBits (freed ++ extent.sectors) false fs := by
        rw [freeBlocks_eq (by rwa [assignBits_boot]) (by rwa [assignBits_boot]), assignBits_append]
        rfl
      have next := ih (freed ++ extent.sectors) restInside
      rw [List.append_assoc] at next
      rw [← next, ← freedRun]
      simp [whenever, empty, fsFreeBlocks]

theorem FsState.setInode_assignBits (fs : FsState) (index : Nat)
    (inode : Inode) (sectors : List Nat) (value : Bool) :
    (assignBits sectors value fs).setInode index inode =
      assignBits sectors value (fs.setInode index inode) := rfl

theorem run_inodeClearExtents {fs : FsState} (formatted : Formatted fs)
    {disk : Nat → Sector} {index : Nat} (dataInside : ∀ sector ∈ (fs.inodes index).dataSectors disk,
      sector < fs.boot.totalSectors) (indirectInside : ∀ sector ∈ (fs.inodes index).indirectSectors,
      sector < fs.boot.totalSectors) : (inodeClearExtents index).run flatDevice fs (.running disk) =
      (some (), assignBits ((fs.inodes index).dataSectors disk ++ (fs.inodes index).indirectSectors)
          false (fs.setInode index (fs.inodes index).cleared), .running disk) := by
  have bounded := formatted.bounded
  have small : fs.boot.totalSectors < 4294967296 := by omega
  have directFreed := run_freeExtents fs (fs.inodes index).direct small (.running disk) [] (by
        intro sector member
        exact dataInside sector (List.mem_append_left _ member))
  rw [assignBits_nil, List.nil_append] at directFreed
  rw [inodeClearExtents, run_inodeAt_bind, run_bind_of_some directFreed,
    run_modifyInode_bind, assignBits_inodes, FsState.setInode_assignBits]
  unfold Inode.dataSectors Inode.indirectSectors at *
  by_cases none : (fs.inodes index).indirectLba = 0
  · have noIndirect : (fs.inodes index).indirectExtents disk = [] := if_pos none
    have sameInode :
        { fs.inodes index with
          direct := Inode.noExtents, direct_length := by decide } =
          (fs.inodes index).cleared := by
      unfold Inode.cleared
      rw [← none]
    rw [noIndirect, if_pos none, extentSectors_nil, List.append_nil, List.append_nil, sameInode]
    simp [whenever, none]
  · have indirect : (fs.inodes index).indirectExtents disk =
      decodeExtents (disk (fs.inodes index).indirectLba) := if_neg none
    rw [indirect] at dataInside ⊢
    rw [if_neg none] at indirectInside ⊢
    let half : FsState := fs.setInode index
      { fs.inodes index with
        direct := Inode.noExtents, direct_length := by decide }
    have indirectFreed := run_freeExtents half
      (decodeExtents (disk (fs.inodes index).indirectLba)) small
      (.running disk) (extentSectors (fs.inodes index).direct) (by
        intro sector member
        exact dataInside sector (List.mem_append_right _ member))
    let freed := extentSectors (fs.inodes index).direct ++
      extentSectors (decodeExtents (disk (fs.inodes index).indirectLba))
    have blockInside : (fs.inodes index).indirectLba + 1 ≤
      (assignBits freed false half).boot.totalSectors := indirectInside _ List.mem_cons_self
    have blockFreed : freeBlocks (fs.inodes index).indirectLba 1 (assignBits freed false half) =
          assignBits (freed ++ [(fs.inodes index).indirectLba]) false half := by
      have smallHere : (assignBits freed false half).boot.totalSectors < 4294967296 := small
      rw [freeBlocks_eq smallHere blockInside, assignBits_append]
      rfl
    simp only [whenever, ne_eq, none, not_false_eq_true, if_true]
    rw [clearIndirect, run_attempt_bind, run_dRead]
    simp only [Option.elim_some]
    rw [run_bind_of_some indirectFreed]
    simp only [fsFreeBlocks, run_modify_bind, run_modifyInode]
    rw [blockFreed]
    simp only [assignBits_inodes, FsState.setInode_assignBits,
      FsState.setInode_self, FsState.setInode_setInode, half]
    rfl

end KnitOS.Fs
