import KnitOS.Fs.Ownership

/-!
# Growing a file

A growing file takes free sectors only and leaves everything else as it is.
-/

namespace KnitOS.Fs

open Lib.Program Storage Function

theorem Extent.merged_sectors (extent : Extent) (count : Nat) :
    (⟨extent.lba, extent.count + count⟩ : Extent).sectors =
      extent.sectors ++ List.range' (extent.lba + extent.count) count := by
  unfold Extent.sectors
  rw [← List.range'_append_1]

theorem Packed.rest_empty {extent : Extent} {rest : List Extent}
    (packed : Packed (extent :: rest)) (empty : extent.count = 0) : extentSectors rest = [] := by
  have allEmpty : ∀ later ∈ rest, later.count = 0 := by
    intro later member
    by_contra nonempty
    exact (List.pairwise_cons.mp packed).1 later member nonempty empty
  rw [extentSectors, List.flatMap_eq_nil_iff]
  intro later member
  rw [Extent.sectors, allEmpty later member]
  rfl

/-- A run of sectors put into a list of sectors, at its end or right behind
the sector that precedes the run on the disk. -/
structure Inserted (sectors : List Nat) (lba count : Nat)
    (sectors' before after : List Nat) : Prop where
  split : sectors = before ++ after
  joined : sectors' = before ++ (List.range' lba count ++ after)
  place : after = [] ∨ before.getLast? = some (lba - 1)

variable {lba count : Nat}

theorem addToExtents_inserts {limit : Nat} (nonempty : count ≠ 0)
    (runInside : lba + count ≤ limit) (small : limit ≤ 2147483648) (extents : List Extent) :
    ∀ {added : List Extent}, Packed extents → (∀ sector ∈ extentSectors extents, sector < limit) →
      addToExtents lba count extents = some added → Packed added ∧ ∃ before after,
            Inserted (extentSectors extents) lba count (extentSectors added) before after := by
  induction extents with
  | nil =>
    intro added _ _ inserted
    simp [addToExtents] at inserted
  | cons extent rest ih =>
    intro added packed inside inserted
    obtain ⟨_, restPacked⟩ := List.pairwise_cons.mp packed
    obtain ⟨headInside, restInside⟩ := List.forall_mem_append.mp inside
    rw [addToExtents] at inserted
    by_cases empty : extent.count = 0
    · rw [if_pos empty] at inserted
      cases inserted
      have noSectors : extent.sectors = [] := by
        rw [Extent.sectors, empty]
        rfl
      refine ⟨List.pairwise_cons.mpr ⟨fun _ _ _ => nonempty, restPacked⟩,
        [], [], ?_, ?_, Or.inl rfl⟩
      · rw [extentSectors_cons, packed.rest_empty empty, noSectors]
      · rw [extentSectors_cons, packed.rest_empty empty]
        rfl
    · have headEnd := Extent.end_le headInside empty
      rw [if_neg empty, u32_of_lt (by omega)] at inserted
      by_cases adjacent : extent.lba + extent.count = lba
      · rw [if_pos adjacent, u32_of_lt (by omega)] at inserted
        cases inserted
        refine ⟨?_, extent.sectors, extentSectors rest, extentSectors_cons _ _, ?_, Or.inr ?_⟩
        · refine List.pairwise_cons.mpr ⟨?_, restPacked⟩
          intro later member _
          exact Nat.ne_of_gt (Nat.lt_of_lt_of_le (Nat.pos_of_ne_zero empty) (Nat.le_add_right _ _))
        · rw [extentSectors_cons, Extent.merged_sectors, adjacent, List.append_assoc]
        · rw [Extent.sectors, List.getLast?_range', if_neg empty]
          congr 1
          omega
      · rw [if_neg adjacent] at inserted
        obtain ⟨restAdded, restInserted, addedEq⟩ := Option.map_eq_some_iff.mp inserted
        obtain ⟨restAddedPacked, before, after, split, joined, place⟩ :=
          ih restPacked restInside restInserted
        rw [← addedEq]
        refine ⟨List.pairwise_cons.mpr ⟨fun _ _ _ => empty, restAddedPacked⟩,
          extent.sectors ++ before, after, ?_, ?_, ?_⟩
        · rw [extentSectors_cons, split, List.append_assoc]
        · rw [extentSectors_cons, joined, List.append_assoc]
        · rcases place with atEnd | behind
          · exact Or.inl atEnd
          · right
            rw [List.getLast?_append, behind]
            rfl

theorem addToExtents_append (first second : List Extent) :
    addToExtents lba count (first ++ second) = match addToExtents lba count first with
      | some added => some (added ++ second)
      | none => (addToExtents lba count second).map fun added =>
        first ++ added := by
  induction first with
  | nil => simp [addToExtents]
  | cons extent rest ih =>
    rw [List.cons_append, addToExtents, addToExtents]
    by_cases empty : extent.count = 0
    · rw [if_pos empty, if_pos empty]
      rfl
    · rw [if_neg empty, if_neg empty]
      by_cases adjacent : u32 (extent.lba + extent.count) = lba
      · rw [if_pos adjacent, if_pos adjacent]
        rfl
      · rw [if_neg adjacent, if_neg adjacent, ih]
        cases addToExtents lba count rest with
        | some added => rfl
        | none =>
          cases addToExtents lba count second with
          | some added => rfl
          | none => rfl

/-- The fields of an extent fit 32 bits. -/
def Extent.Fits (extent : Extent) : Prop :=
  extent.lba < 4294967296 ∧ extent.count < 4294967296

theorem addToExtents_fits
    (lbaFits : lba < 4294967296) (countFits : count < 4294967296) (extents : List Extent) :
    ∀ {added : List Extent}, (∀ extent ∈ extents, extent.Fits) →
      addToExtents lba count extents = some added → ∀ extent ∈ added, extent.Fits := by
  induction extents with
  | nil =>
    intro added _ inserted
    simp [addToExtents] at inserted
  | cons first rest ih =>
    intro added fits inserted
    obtain ⟨firstFits, restFits⟩ := List.forall_mem_cons.mp fits
    rw [addToExtents] at inserted
    split at inserted
    · cases inserted
      exact List.forall_mem_cons.mpr ⟨⟨lbaFits, countFits⟩, restFits⟩
    · split at inserted
      · cases inserted
        exact List.forall_mem_cons.mpr ⟨⟨firstFits.1, u32_lt _⟩, restFits⟩
      · obtain ⟨restAdded, restInserted, addedEq⟩ := Option.map_eq_some_iff.mp inserted
        rw [← addedEq]
        exact List.forall_mem_cons.mpr ⟨firstFits, ih restFits restInserted⟩

theorem wordOf_lt (first second third fourth : UInt8) :
    wordOf first second third fourth < 4294967296 := by
  have one := first.toNat_lt
  have two := second.toNat_lt
  have three := third.toNat_lt
  have four := fourth.toNat_lt
  unfold wordOf
  omega

theorem wordAt_lt (bytes : Nat → UInt8) (offset : Nat) : wordAt bytes offset < 4294967296 :=
  wordOf_lt _ _ _ _

theorem decodeExtents_fits (sector : Sector) : ∀ extent ∈ decodeExtents sector, extent.Fits := by
  intro extent member
  obtain ⟨index, _, extentEq⟩ := List.mem_map.mp member
  rw [← extentEq]
  exact ⟨wordAt_lt _ _, wordAt_lt _ _⟩

theorem decodeExtents_length (sector : Sector) : (decodeExtents sector).length = indirectMax := by
  rw [decodeExtents, List.length_map, List.length_range]

theorem decodeExtents_addToExtents (lbaFits : lba < 4294967296) (countFits : count < 4294967296)
    {extents added : List Extent} (full : extents.length = indirectMax)
    (fits : ∀ extent ∈ extents, extent.Fits)
    (inserted : addToExtents lba count extents = some added) :
    decodeExtents (encodeExtents added) = added := decodeExtents_encodeExtents
    ((addToExtents_length inserted).trans full)
    (addToExtents_fits lbaFits countFits extents fits inserted)

theorem free_of_bits {fs fs' : FsState} (bits : ∀ sector, fsBitmapTest fs sector = true →
      fsBitmapTest fs' sector = true) {sector : Nat} (free : fsBitmapTest fs' sector = false) :
    fsBitmapTest fs sector = false := by
  by_contra marked
  rw [bits sector (Bool.not_eq_false _ ▸ marked)] at free
  cases free

/-- What a growing file leaves alone: all variables but its own extents and
the bitmap, which only gains bits, and all sectors in use but its own indirect
block. -/
structure Grown (index : Nat) (fs : FsState) (disk : Nat → Sector)
    (fs' : FsState) (disk' : Nat → Sector) : Prop where
  boot : fs'.boot = fs.boot
  initialized : fs'.initialized = fs.initialized
  bitmapSectors : fs'.bitmapSectors = fs.bitmapSectors
  bitmap : fs'.bitmap.isSome = fs.bitmap.isSome
  kernel : fs'.kernel = fs.kernel
  others : ∀ other, other ≠ index → fs'.inodes other = fs.inodes other
  inode : (fs'.inodes index).cleared = (fs.inodes index).cleared
  bits : ∀ sector, fsBitmapTest fs sector = true → fsBitmapTest fs' sector = true
  indirect : ∀ sector ∈ (fs'.inodes index).indirectSectors,
    sector ∈ (fs.inodes index).indirectSectors ∨ fsBitmapTest fs sector = false
  keptIndirect : ∀ sector ∈ (fs.inodes index).indirectSectors,
    sector ∈ (fs'.inodes index).indirectSectors
  written : ∀ sector, sector ∉ (fs'.inodes index).indirectSectors → disk' sector = disk sector

namespace Grown

variable {index : Nat} {fs fs' fs'' : FsState}
  {disk disk' disk'' : Nat → Sector}

theorem refl (index : Nat) (fs : FsState) (disk : Nat → Sector) : Grown index fs disk fs disk :=
  ⟨rfl, rfl, rfl, rfl, rfl, fun _ _ => rfl, rfl, fun _ marked => marked,
    fun _ member => Or.inl member, fun _ member => member, fun _ _ => rfl⟩

theorem sectors (grown : Grown index fs disk fs' disk') {sector : Nat}
    (marked : fsBitmapTest fs sector = true)
    (notIndirect : sector ∉ (fs.inodes index).indirectSectors) : disk' sector = disk sector := by
  apply grown.written
  intro member
  rcases grown.indirect sector member with before | free
  · exact notIndirect before
  · rw [marked] at free
    cases free

theorem trans (first : Grown index fs disk fs' disk') (second : Grown index fs' disk' fs'' disk'') :
    Grown index fs disk fs'' disk'' := by
  refine ⟨second.boot.trans first.boot, second.initialized.trans first.initialized,
    second.bitmapSectors.trans first.bitmapSectors,
    second.bitmap.trans first.bitmap, second.kernel.trans first.kernel,
    ?_, second.inode.trans first.inode, ?_, ?_, ?_, ?_⟩
  · intro other different
    exact (second.others other different).trans (first.others other different)
  · intro sector marked
    exact second.bits sector (first.bits sector marked)
  · intro sector member
    rcases second.indirect sector member with before | free
    · exact first.indirect sector before
    · exact Or.inr (free_of_bits first.bits free)
  · intro sector member
    exact second.keptIndirect sector (first.keptIndirect sector member)
  · intro sector notIndirect
    rw [second.written sector notIndirect]
    apply first.written
    intro member
    exact notIndirect (second.keptIndirect sector member)

variable (grown : Grown index fs disk fs' disk')
include grown

theorem others_sectors
    {held : List Nat} (owned : Owned fs disk held) (inTable : index < maxInodes) :
    ∀ other, other ≠ index → other < maxInodes → ∀ sector ∈ (fs.inodes other).ownedSectors disk,
        disk' sector = disk sector := by
  intro other different otherInTable sector member
  apply grown.sectors (owned.inode_marked otherInTable sector member).2.2
  intro inIndirect
  apply owned.inode_apart otherInTable inTable different sector member
  exact List.mem_append_right _ (List.mem_append_left _ inIndirect)

theorem formatted (before : Formatted fs) : Formatted fs' := by
  apply before.of_same _ grown.initialized grown.bitmap grown.bitmapSectors
  rw [grown.boot]
  rfl

theorem consistent {held held' : List Nat} (before : Consistent fs disk held)
    (inTable : index < maxInodes) (owned : Owned fs' disk' held')
    (packed : Packed ((fs'.inodes index).extents disk')) : Consistent fs' disk' held' := by
  refine ⟨grown.formatted before.formatted, owned, ?_⟩
  intro other otherInTable
  by_cases same : other = index
  · rw [same]
    exact packed
  · rw [grown.others other same, Inode.extents_congr fun present =>
      grown.others_sectors before.owned inTable other same otherInTable _
        (Inode.mem_ownedSectors_indirect disk present)]
    exact before.packed other otherInTable

end Grown

/-- A run became part of a file. -/
structure Attached (inode : Inode) (disk : Nat → Sector) (inode' : Inode)
    (disk' : Nat → Sector) (lba count : Nat) : Prop where
  packed : Packed (inode'.extents disk')
  inserted : ∃ before after, Inserted (inode.dataSectors disk) lba count (inode'.dataSectors disk')
      before after

variable {disk disk' : Nat → Sector} {inode inode' : Inode}

theorem Attached.perm (attached : Attached inode disk inode' disk' lba count) :
    (inode'.dataSectors disk').Perm (inode.dataSectors disk ++ List.range' lba count) := by
  obtain ⟨before, after, split, joined, _⟩ := attached.inserted
  rw [split, joined, List.append_assoc]
  exact List.Perm.append_left _ List.perm_append_comm

theorem Attached.length_eq (attached : Attached inode disk inode' disk' lba count) :
    (inode'.dataSectors disk').length = (inode.dataSectors disk).length + count := by
  rw [attached.perm.length_eq, List.length_append, List.length_range']

variable {fs : FsState}

theorem Attached.of_add (formatted : Formatted fs) (nonempty : count ≠ 0)
    (runInside : lba + count ≤ fs.boot.totalSectors)
    {before : List Extent} (sameSectors : extentSectors before = inode.dataSectors disk)
    (packed : Packed before) (inside : ∀ sector ∈ inode.dataSectors disk,
      sector < fs.boot.totalSectors) (inserted :
      addToExtents lba count before = some (inode'.extents disk')) :
    Attached inode disk inode' disk' lba count := by
  have bounded := formatted.bounded
  rw [← sameSectors] at inside
  obtain ⟨addedPacked, place⟩ :=
    addToExtents_inserts nonempty runInside (by omega) before packed inside inserted
  rw [sameSectors, Inode.extentSectors_extents] at place
  exact ⟨addedPacked, place⟩

/-- What the owner has afterwards, up to order: what it had, the run, and the
blocks that describe it. -/
theorem Attached.owned_perm
    (attached : Attached inode disk inode' disk' lba count) (held extra : List Nat)
    (blocks : (inode'.indirectSectors ++ inode'.xattrSectors).Perm
      (extra ++ (inode.indirectSectors ++ inode.xattrSectors))) :
    (inode'.ownedSectors disk' ++ held).Perm (inode.ownedSectors disk ++
        (extra ++ (List.range' lba count ++ held))) := by
  unfold Inode.ownedSectors
  rw [List.perm_iff_count]
  intro sector
  have countedData := attached.perm.count_eq sector
  have countedBlocks := blocks.count_eq sector
  simp only [List.count_append] at countedData countedBlocks ⊢
  omega

theorem Inode.addDirect_eq {added : Inode} (inserted : inode.addDirect lba count = some added) :
    addToExtents lba count inode.direct = some added.direct ∧ added.cleared = inode.cleared ∧
      added.indirectLba = inode.indirectLba ∧ added.xattrLba = inode.xattrLba := by
  unfold Inode.addDirect at inserted
  split at inserted
  · rename_i direct found
    cases inserted
    exact ⟨found, rfl, rfl, rfl⟩
  · cases inserted

theorem addToExtents_empty (lba count : Nat) :
    addToExtents lba count (List.replicate indirectMax ⟨0, 0⟩) =
      some (⟨lba, count⟩ :: List.replicate 63 ⟨0, 0⟩) := rfl

theorem fits_of_mem_empty : ∀ extent ∈ List.replicate indirectMax (⟨0, 0⟩ : Extent),
    extent.Fits := by
  intro extent member
  rw [List.eq_of_mem_replicate member]
  exact ⟨by decide, by decide⟩

theorem run_indirectForAdd_present {fs : FsState} {index : Nat}
    (present : (fs.inodes index).indirectLba ≠ 0) (disk : Nat → Sector) :
    (indirectForAdd index).run flatDevice fs (.running disk) = (some ((fs.inodes index).indirectLba,
        decodeExtents (disk (fs.inodes index).indirectLba)), fs, .running disk) := by
  rw [indirectForAdd, run_inodeAt_bind, if_neg present, run_dRead_bind]
  rfl

theorem Inode.addDirect_none
    (full : inode.addDirect lba count = none) : addToExtents lba count inode.direct = none := by
  unfold Inode.addDirect at full
  split at full
  · cases full
  · assumption

theorem Inode.addDirect_extents {added : Inode} (inserted : inode.addDirect lba count = some added)
    (disk : Nat → Sector) :
    addToExtents lba count (inode.extents disk) = some (added.extents disk) := by
  obtain ⟨addedDirect, _, sameIndirect, _⟩ := Inode.addDirect_eq inserted
  unfold Inode.extents Inode.indirectExtents
  rw [addToExtents_append, addedDirect, sameIndirect]

section

variable (lbaFits : lba < 4294967296) (countFits : count < 4294967296) {added : List Extent}
include lbaFits countFits

/-- The extents after a run went into the indirect block. -/
theorem Inode.extents_rewritten (present : inode.indirectLba ≠ 0)
    (full : inode.addDirect lba count = none) (inserted : addToExtents lba count
      (decodeExtents (disk inode.indirectLba)) = some added) :
    addToExtents lba count (inode.extents disk) =
      some (inode.extents (update disk inode.indirectLba (encodeExtents added))) := by
  have decoded := decodeExtents_addToExtents lbaFits countFits
    (decodeExtents_length _) (decodeExtents_fits _) inserted
  unfold Inode.extents Inode.indirectExtents
  rw [if_neg present, if_neg present, addToExtents_append, Inode.addDirect_none full,
    inserted, update_self, decoded]
  rfl

theorem Inode.extents_newIndirect {block : Nat} (present : block ≠ 0) (inserted :
      addToExtents lba count (List.replicate indirectMax ⟨0, 0⟩) = some added) :
    ({ inode with indirectLba := block } : Inode).extents
      (update disk block (encodeExtents added)) = inode.direct ++ added := by
  have decoded := decodeExtents_addToExtents lbaFits countFits List.length_replicate
    fits_of_mem_empty inserted
  unfold Inode.extents Inode.indirectExtents
  dsimp only
  rw [if_neg present, update_self, decoded]

end

/-- What the running function must hold to add a run to a file. -/
structure AddReady (fs : FsState) (disk : Nat → Sector) (held : List Nat)
    (index lba count : Nat) : Prop where
  consistent : Consistent fs disk (List.range' lba count ++ held)
  inTable : index < maxInodes
  nonempty : count ≠ 0

namespace AddReady

variable {fs : FsState} {disk : Nat → Sector} {held : List Nat}
  {index lba count : Nat} (ready : AddReady fs disk held index lba count)

include ready

theorem formatted : Formatted fs := ready.consistent.formatted

theorem owned : Owned fs disk (List.range' lba count ++ held) := ready.consistent.owned

theorem packed : Packed ((fs.inodes index).extents disk) :=
  ready.consistent.packed index ready.inTable

theorem run_inside : lba + count ≤ fs.boot.totalSectors := by
  have nonempty := ready.nonempty
  have last := (ready.owned.held_marked (lba + (count - 1)) (List.mem_append_left _
    (List.mem_range'_1.mpr (by omega)))).2.1
  omega

theorem data_inside : ∀ sector ∈ (fs.inodes index).dataSectors disk,
      sector < fs.boot.totalSectors := (ready.owned.mappable ready.inTable).inside

/-- The result of adding a run: the file got it and nothing else changed. -/
def Result (_ready : AddReady fs disk held index lba count)
    (fs' : FsState) (disk' : Nat → Sector) : Prop :=
  Owned fs' disk' held ∧ Grown index fs disk fs' disk' ∧
    Attached (fs.inodes index) disk (fs'.inodes index) disk' lba count

theorem attached {inode' : Inode} {disk' : Nat → Sector} (inserted : addToExtents lba count
      ((fs.inodes index).extents disk) = some (inode'.extents disk')) :
    Attached (fs.inodes index) disk inode' disk' lba count :=
  Attached.of_add ready.formatted ready.nonempty ready.run_inside
    (Inode.extentSectors_extents _ _) ready.packed ready.data_inside inserted

theorem direct {added : Inode} (inserted : (fs.inodes index).addDirect lba count = some added) :
    ready.Result (fs.setInode index added) disk := by
  obtain ⟨_, sameCleared, sameIndirect, sameXattr⟩ := Inode.addDirect_eq inserted
  have attached := ready.attached (Inode.addDirect_extents inserted disk)
  have sameBlocks : added.indirectSectors ++ added.xattrSectors =
        (fs.inodes index).indirectSectors ++ (fs.inodes index).xattrSectors := by
    unfold Inode.indirectSectors Inode.xattrSectors
    rw [sameIndirect, sameXattr]
  refine ⟨?_, ?_, ?_⟩
  · refine ready.owned.exchange ready.inTable rfl (fun _ => rfl)
      (fun other different => fs.setInode_other index added different) (fun _ _ _ _ _ => rfl) ?_
    rw [FsState.setInode_self]
    exact attached.owned_perm held [] (List.Perm.of_eq sameBlocks)
  · have sameIndirectSectors : ((fs.setInode index added).inodes index).indirectSectors =
          (fs.inodes index).indirectSectors := by
      rw [FsState.setInode_self]
      unfold Inode.indirectSectors
      rw [sameIndirect]
    refine ⟨rfl, rfl, rfl, rfl, rfl,
      fun other different => fs.setInode_other index added different, ?_,
      fun _ marked => marked, ?_, ?_, fun _ _ => rfl⟩
    · rw [FsState.setInode_self]
      exact sameCleared
    · intro sector member
      rw [sameIndirectSectors] at member
      exact Or.inl member
    · intro sector member
      rw [sameIndirectSectors]
      exact member
  · rw [FsState.setInode_self]
    exact attached

theorem indirect (present : (fs.inodes index).indirectLba ≠ 0)
    (full : (fs.inodes index).addDirect lba count = none)
    {added : List Extent} (inserted : addToExtents lba count
        (decodeExtents (disk (fs.inodes index).indirectLba)) = some added) : ready.Result fs
      (update disk (fs.inodes index).indirectLba (encodeExtents added)) := by
  have bounded := ready.formatted.bounded
  have runInside := ready.run_inside
  let block := (fs.inodes index).indirectLba
  let disk' := update disk block (encodeExtents added)
  have attached := ready.attached
    (Inode.extents_rewritten (by omega) (by omega) present full inserted)
  have blockOwned : block ∈ (fs.inodes index).ownedSectors disk :=
    Inode.mem_ownedSectors_indirect disk present
  have elsewhere : ∀ sector, sector ≠ block → disk' sector = disk sector := by
    intro sector different
    exact update_of_ne different _ _
  refine ⟨?_, ?_, attached⟩
  · refine ready.owned.exchange ready.inTable rfl (fun _ => rfl) (fun _ _ => rfl) ?_ ?_
    · intro other different otherInTable sector member
      apply elsewhere
      intro same
      exact ready.owned.inode_apart ready.inTable otherInTable
        (Ne.symm different) block blockOwned (same ▸ member)
    · exact attached.owned_perm held [] (List.Perm.refl _)
  · refine ⟨rfl, rfl, rfl, rfl, rfl, fun _ _ => rfl, rfl,
      fun _ marked => marked, fun _ member => Or.inl member, fun _ member => member, ?_⟩
    intro sector notIndirect
    apply elsewhere
    intro same
    apply notIndirect
    rw [same]
    exact Inode.mem_indirectSectors present

theorem newIndirect (absent : (fs.inodes index).indirectLba = 0)
    (full : (fs.inodes index).addDirect lba count = none)
    {block : Nat} (blockAbove : fs.base ≤ block) (blockInside : block < fs.boot.totalSectors)
    (blockFree : fsBitmapTest fs block = false)
    {added : List Extent} (inserted : addToExtents lba count (List.replicate indirectMax ⟨0, 0⟩) =
        some added) : ready.Result ((assignBits [block] true fs).setInode index
        { fs.inodes index with indirectLba := block })
      (update disk block (encodeExtents added)) := by
  have bounded := ready.formatted.bounded
  have runInside := ready.run_inside
  have base := ready.formatted.base_eq
  have present : block ≠ 0 := by omega
  let inode' : Inode := { fs.inodes index with indirectLba := block }
  let fs' := (assignBits [block] true fs).setInode index inode'
  let disk' := update disk block (encodeExtents added)
  have none : (fs.inodes index).indirectExtents disk = [] := if_pos absent
  have sameSectors : extentSectors ((fs.inodes index).direct ++ List.replicate indirectMax ⟨0, 0⟩) =
        (fs.inodes index).dataSectors disk := by
    rw [extentSectors_append, extentSectors_replicate_empty]
    unfold Inode.dataSectors
    rw [none]
    rfl
  have samePacked : Packed ((fs.inodes index).direct ++ List.replicate indirectMax ⟨0, 0⟩) := by
    have packed := ready.packed
    unfold Inode.extents at packed
    rw [none, List.append_nil] at packed
    refine List.pairwise_append.mpr ⟨packed, ?_, ?_⟩
    · rw [List.pairwise_replicate]
      exact Or.inr (fun nonempty => nonempty)
    · intro earlier _ later member nonempty
      rw [List.eq_of_mem_replicate member] at nonempty
      exact absurd rfl nonempty
  have insertedAll : addToExtents lba count
          ((fs.inodes index).direct ++ List.replicate indirectMax ⟨0, 0⟩) =
        some (inode'.extents disk') := by
    rw [Inode.extents_newIndirect (by omega) (by omega) present inserted,
      addToExtents_append, Inode.addDirect_none full, inserted]
    rfl
  have attached : Attached (fs.inodes index) disk inode' disk' lba count :=
    Attached.of_add ready.formatted ready.nonempty ready.run_inside
      sameSectors samePacked ready.data_inside insertedAll
  have elsewhere : ∀ sector, fsBitmapTest fs sector = true → disk' sector = disk sector := by
    intro sector isMarked
    apply update_of_ne
    intro same
    rw [same, blockFree] at isMarked
    cases isMarked
  have heldBlock := ready.owned.allocOne ready.formatted blockAbove blockInside blockFree
  refine ⟨?_, ?_, ?_⟩
  · refine heldBlock.exchange ready.inTable rfl (fun _ => rfl)
      (fun other different => FsState.setInode_other _ index inode' different) ?_ ?_
    · intro other different otherInTable sector member
      exact elsewhere sector (ready.owned.inode_marked otherInTable sector member).2.2
    · rw [FsState.setInode_self]
      refine attached.owned_perm held [block] (List.Perm.of_eq ?_)
      unfold Inode.indirectSectors Inode.xattrSectors
      rw [if_pos absent, if_neg present, List.nil_append]
  · refine ⟨rfl, rfl, rfl, ?_, rfl,
      fun other different => FsState.setInode_other _ index inode' different, ?_, ?_, ?_, ?_, ?_⟩
    · simp [assignBits]
    · rw [FsState.setInode_self]
      rfl
    · intro sector isMarked
      change fsBitmapTest (assignBits [block] true fs) sector = true
      rw [fsBitmapTest_assignBits _ _ ready.formatted.bitmap, isMarked]
      simp
    · intro sector member
      rw [FsState.setInode_self] at member
      unfold Inode.indirectSectors at member
      rw [if_neg present, List.mem_singleton] at member
      rw [member]
      exact Or.inr blockFree
    · intro sector member
      unfold Inode.indirectSectors at member
      rw [if_pos absent] at member
      cases member
    · intro sector notIndirect
      apply update_of_ne
      intro same
      apply notIndirect
      rw [FsState.setInode_self, same]
      exact Inode.mem_indirectSectors present
  · rw [FsState.setInode_self]
    exact attached

theorem run_inodeAddExtent : (inodeAddExtent index lba count).run flatDevice fs (.running disk) =
    (none, fs, .running disk) ∨ ∃ fs' disk',
    (inodeAddExtent index lba count).run flatDevice fs (.running disk) =
      (some (), fs', .running disk') ∧ ready.Result fs' disk' := by
  unfold inodeAddExtent
  rw [run_inodeAt_bind]
  cases inserted : (fs.inodes index).addDirect lba count with
  | some added => exact Or.inr ⟨_, _, rfl, ready.direct inserted⟩
  | none =>
    simp only
    by_cases absent : (fs.inodes index).indirectLba = 0
    · rcases fsAllocBlocks_spec ready.formatted Nat.one_ne_zero
        (.running disk) with failed | ⟨block, allocated, above, below, free⟩
      · left
        have noBlock : (indirectForAdd index).run flatDevice fs (.running disk) =
              (none, fs, .running disk) := by
          rw [indirectForAdd, run_inodeAt_bind, if_pos absent, run_bind_of_none failed]
        rw [run_bind_of_none noBlock]
      · right
        have blockFree : fsBitmapTest fs block = false :=
          free block (List.mem_range'_1.mpr (by omega))
        have newBlock : (indirectForAdd index).run flatDevice fs (.running disk) =
              (some (block, List.replicate indirectMax ⟨0, 0⟩),
                (assignBits [block] true fs).setInode index
                  { fs.inodes index with indirectLba := block }, .running disk) := by
          rw [indirectForAdd, run_inodeAt_bind, if_pos absent, run_bind_of_some allocated]
          rfl
        refine ⟨_, _, ?_, ready.newIndirect absent inserted above (by omega) blockFree
          (addToExtents_empty lba count)⟩
        rw [run_bind_of_some newBlock]
        simp only [addToExtents_empty, run_dWrite]
    · rw [run_bind_of_some (run_indirectForAdd_present absent disk)]
      cases insertedIndirect : addToExtents lba count
        (decodeExtents (disk (fs.inodes index).indirectLba)) with
      | none =>
        left
        simp only [run_fail]
      | some added =>
        right
        refine ⟨_, _, ?_, ready.indirect absent inserted insertedIndirect⟩
        simp only [run_dWrite]

theorem consistent_of_result {fs' : FsState} {disk' : Nat → Sector}
    (result : ready.Result fs' disk') : Consistent fs' disk' held :=
  result.2.1.consistent ready.consistent ready.inTable result.1 result.2.2.packed

end AddReady

theorem run_allocUpTo (formatted : Formatted fs) (flat : FlatDisk) : ∀ (want : Nat),
    (allocUpTo want).run flatDevice fs flat = (none, fs, flat) ∨ ∃ start got,
      (allocUpTo want).run flatDevice fs flat =
        (some (start, got), assignBits (List.range' start got) true fs, flat) ∧
      got ≠ 0 ∧ got ≤ want ∧ fs.base ≤ start ∧ start + got ≤ fs.boot.totalSectors ∧
      ∀ sector ∈ List.range' start got, fsBitmapTest fs sector = false := by
  intro want
  induction want with
  | zero => exact Or.inl rfl
  | succ want ih =>
    rw [allocUpTo, run_attempt_bind]
    rcases fsAllocBlocks_spec formatted (Nat.succ_ne_zero want) flat with
      failed | ⟨start, allocated, above, below, free⟩
    · rw [failed]
      rcases ih with
        alsoFailed | ⟨start, got, found, nonempty, short, rest⟩
      · exact Or.inl alsoFailed
      · exact Or.inr ⟨start, got, found, nonempty, by omega, rest⟩
    · rw [allocated]
      exact Or.inr ⟨start, want + 1, rfl, Nat.succ_ne_zero want, Nat.le_refl _, above, below, free⟩

theorem Grown.mark (formatted : Formatted fs) (index : Nat)
    (disk : Nat → Sector) (sectors : List Nat) :
    Grown index fs disk (assignBits sectors true fs) disk := by
  refine ⟨rfl, rfl, rfl, by simp [assignBits], rfl, fun _ _ => rfl, rfl, ?_,
    fun _ member => Or.inl member, fun _ member => member, fun _ _ => rfl⟩
  intro sector marked
  rw [fsBitmapTest_assignBits _ _ formatted.bitmap, marked]
  simp

/-- What a round of `inode_grow_sectors`, or all of them, did to a file. -/
structure GrowthStep (index : Nat) (fs : FsState) (disk : Nat → Sector)
    (held : List Nat) (fs' : FsState) (disk' : Nat → Sector) : Prop where
  consistent : Consistent fs' disk' held
  grown : Grown index fs disk fs' disk'

variable {index : Nat} {held : List Nat}

/-- The attached run is the file's, or its sectors are free again. -/
theorem run_attachRun (formatted : Formatted fs) {start got : Nat}
    (below : start + got ≤ fs.boot.totalSectors)
    (free : ∀ sector ∈ List.range' start got, fsBitmapTest fs sector = false)
    (ready : AddReady (assignBits (List.range' start got) true fs) disk held index start got) :
    (attachRun index start got).run flatDevice (assignBits (List.range' start got) true fs)
        (.running disk) = (none, fs, .running disk) ∨
    ∃ fs' disk', (attachRun index start got).run flatDevice
        (assignBits (List.range' start got) true fs) (.running disk) =
          (some (), fs', .running disk') ∧ ready.Result fs' disk' := by
  rw [attachRun, run_attempt_bind]
  rcases ready.run_inodeAddExtent with full | ⟨fs', disk', added, result⟩
  · left
    have bounded := formatted.bounded
    have small : (assignBits (List.range' start got) true fs).boot.totalSectors < 4294967296 := by
      change fs.boot.totalSectors < 4294967296
      omega
    have undone : freeBlocks start got (assignBits (List.range' start got) true fs) = fs := by
      rw [freeBlocks_eq small below]
      refine assignBits_restore (fun sector member => ?_) free
      rw [List.mem_range'_1] at member
      omega
    rw [full]
    simp only [fsFreeBlocks, run_modify_bind, undone, run_fail]
  · right
    rw [added]
    exact ⟨fs', disk', rfl, result⟩

theorem run_growRound (consistent : Consistent fs disk held)
    (inTable : index < maxInodes) (want : Nat) :
    (growRound index want).run flatDevice fs (.running disk) = (none, fs, .running disk) ∨
    ∃ start got marked fs' disk', (allocUpTo want).run flatDevice fs (.running disk) =
        (some (start, got), marked, .running disk) ∧
      (attachRun index start got).run flatDevice marked (.running disk) =
        (some (), fs', .running disk') ∧
      (growRound index want).run flatDevice fs (.running disk) =
        (some got, fs', .running disk') ∧ got ≠ 0 ∧ got ≤ want ∧ 0 < start ∧
      (∀ sector ∈ List.range' start got, fsBitmapTest fs sector = false) ∧
      GrowthStep index fs disk held fs' disk' ∧
      Attached (fs.inodes index) disk (fs'.inodes index) disk' start got := by
  have formatted := consistent.formatted
  have base := formatted.base_eq
  rcases run_allocUpTo formatted (.running disk) want with
    failed | ⟨start, got, allocated, nonempty, short, above, below, free⟩
  · exact Or.inl (run_bind_of_none failed)
  · have inside : ∀ sector ∈ List.range' start got,
        fs.base ≤ sector ∧ sector < fs.boot.totalSectors := by
      intro sector member
      rw [List.mem_range'_1] at member
      omega
    have heldRun := consistent.owned.alloc formatted (List.nodup_range' 1) inside free
    let marked := assignBits (List.range' start got) true fs
    have markedGrown : Grown index fs disk marked disk := Grown.mark formatted index disk _
    have ready : AddReady marked disk held index start got := by
      refine ⟨⟨formatted.assignBits _ _, heldRun, ?_⟩, inTable, nonempty⟩
      exact consistent.packed
    rw [growRound, run_bind_of_some allocated]
    rcases run_attachRun formatted below free ready with failed | ⟨fs', disk', attached, result⟩
    · exact Or.inl (run_bind_of_none failed)
    · exact Or.inr ⟨start, got, marked, fs', disk', allocated, attached,
        run_bind_of_some attached, nonempty, short, by omega, free,
        ⟨ready.consistent_of_result result, markedGrown.trans result.2.1⟩, result.2.2⟩

/-- No sector among the first ones of a list, but the last of these, is
followed by a free sector of the disk. -/
def Guarded (fs : FsState) (sectors : List Nat) (keep : Nat) : Prop :=
  ∀ position sector, sectors[position]? = some sector →
    position + 1 < keep → fsBitmapTest fs (sector + 1) = true

/-- How the data sectors of a file change when it grows: it gets free ones, and
guarded sectors keep their place. -/
structure Extended (fs : FsState) (sectors sectors' : List Nat) : Prop where
  perm : ∃ extra, sectors'.Perm (sectors ++ extra) ∧
    ∀ sector ∈ extra, fsBitmapTest fs sector = false
  kept : ∀ keep, keep ≤ sectors.length → Guarded fs sectors keep →
    sectors'.take keep = sectors.take keep

theorem Extended.refl (fs : FsState) (sectors : List Nat) : Extended fs sectors sectors :=
  ⟨⟨[], by rw [List.append_nil], fun _ member => by cases member⟩, fun _ _ _ => rfl⟩

variable {sectors sectors' : List Nat}

theorem Extended.length_le
    (extended : Extended fs sectors sectors') : sectors.length ≤ sectors'.length := by
  obtain ⟨extra, perm, _⟩ := extended.perm
  rw [perm.length_eq, List.length_append]
  exact Nat.le_add_right _ _

theorem Guarded.of_take_eq {fs' : FsState}
    {keep : Nat} (bits : ∀ sector, fsBitmapTest fs sector = true → fsBitmapTest fs' sector = true)
    (same : sectors'.take keep = sectors.take keep)
    (guarded : Guarded fs sectors keep) : Guarded fs' sectors' keep := by
  intro position sector at_ inner
  apply bits
  refine guarded position sector ?_ inner
  have kept := congrArg (fun taken => taken[position]?) same
  simp only [List.getElem?_take, if_pos (show position < keep by omega)] at kept
  rw [← kept]
  exact at_

theorem Extended.trans {fs' : FsState}
    {sectors'' : List Nat} (bits : ∀ sector, fsBitmapTest fs sector = true →
      fsBitmapTest fs' sector = true) (first : Extended fs sectors sectors')
    (second : Extended fs' sectors' sectors'') : Extended fs sectors sectors'' := by
  obtain ⟨firstExtra, firstPerm, firstFree⟩ := first.perm
  obtain ⟨secondExtra, secondPerm, secondFree⟩ := second.perm
  refine ⟨⟨firstExtra ++ secondExtra, ?_, ?_⟩, ?_⟩
  · rw [← List.append_assoc]
    exact secondPerm.trans (List.Perm.append_right _ firstPerm)
  · exact List.forall_mem_append.mpr ⟨firstFree, fun sector inSecond =>
      free_of_bits bits (secondFree sector inSecond)⟩
  · intro keep short guarded
    have firstKept := first.kept keep short guarded
    have longer := first.length_le
    rw [second.kept keep (by omega) (guarded.of_take_eq bits firstKept), firstKept]

/-- A run that starts behind none of the first sectors, but perhaps the last of
these, leaves them in place. -/
theorem Attached.take_eq
    {start got keep : Nat} (attached : Attached inode disk inode' disk' start got)
    (positive : 0 < start) (short : keep ≤ (inode.dataSectors disk).length)
    (apart : ∀ position sector, (inode.dataSectors disk)[position]? = some sector →
        position + 1 < keep → sector + 1 ≠ start) : (inode'.dataSectors disk').take keep =
      (inode.dataSectors disk).take keep := by
  obtain ⟨before, after, split, joined, place⟩ := attached.inserted
  rw [split] at short apart ⊢
  rw [joined]
  rcases place with atEnd | behind
  · subst atEnd
    rw [List.append_nil] at short
    rw [List.take_append_of_le_length short, List.take_append_of_le_length short]
  · by_cases early : keep ≤ before.length
    · rw [List.take_append_of_le_length early, List.take_append_of_le_length early]
    · exfalso
      have lastAt : before[before.length - 1]? = some (start - 1) := by
        rw [← List.getLast?_eq_getElem?]
        exact behind
      have someBefore : before.length ≠ 0 := by
        intro empty
        rw [List.eq_nil_of_length_eq_zero empty] at behind
        cases behind
      refine apart (before.length - 1) (start - 1) ?_ (by omega) (Nat.sub_add_cancel positive)
      rw [List.getElem?_append_left (by omega)]
      exact lastAt

theorem Attached.extended {start got : Nat} (attached : Attached inode disk inode' disk' start got)
    (positive : 0 < start) (nonempty : got ≠ 0) (free : ∀ sector ∈ List.range' start got,
      fsBitmapTest fs sector = false) :
    Extended fs (inode.dataSectors disk) (inode'.dataSectors disk') := by
  refine ⟨⟨_, attached.perm, free⟩, ?_⟩
  intro keep short guarded
  refine attached.take_eq positive short ?_
  intro position sector at_ inner isStart
  -- the run would follow a guarded sector, so it was not free
  have startFree := free start (List.mem_range'_1.mpr (by omega))
  have marked := guarded position sector at_ inner
  rw [isStart, startFree] at marked
  cases marked

/-- The loop of `inode_grow_sectors` extends the file, to the wanted number
of sectors if it succeeds. -/
theorem run_growLoop {needSecs : Nat} (inTable : index < maxInodes) :
    ∀ (rounds : Nat) {fs : FsState} {disk : Nat → Sector}, Consistent fs disk held →
      needSecs ≤ ((fs.inodes index).dataSectors disk).length + rounds → ∃ outcome fs' disk',
        (growLoop index needSecs rounds
            ((fs.inodes index).dataSectors disk).length).run flatDevice fs (.running disk) =
          (outcome, fs', .running disk') ∧ GrowthStep index fs disk held fs' disk' ∧
        Extended fs ((fs.inodes index).dataSectors disk) ((fs'.inodes index).dataSectors disk') ∧
        (outcome = some () → ((fs'.inodes index).dataSectors disk').length =
            max needSecs ((fs.inodes index).dataSectors disk).length) := by
  intro rounds
  induction rounds with
  | zero =>
    intro fs disk consistent enough
    exact ⟨some (), fs, disk, rfl, ⟨consistent, Grown.refl index fs disk⟩,
      Extended.refl _ _, fun _ => by omega⟩
  | succ rounds ih =>
    intro fs disk consistent enough
    rw [growLoop]
    by_cases short : ((fs.inodes index).dataSectors disk).length < needSecs
    · rw [if_pos short]
      rcases run_growRound consistent inTable
        (min (needSecs - ((fs.inodes index).dataSectors disk).length) 8) with failed |
        ⟨start, got, _, middle, middleDisk, _, _, added, nonempty,
          fits, positive, free, step, attached⟩
      · exact ⟨none, fs, disk, run_bind_of_none failed,
          ⟨consistent, Grown.refl index fs disk⟩, Extended.refl _ _, by rintro ⟨⟩⟩
      · have longer := attached.length_eq
        obtain ⟨outcome, fs', disk', looped, restStep, restExtended, reached⟩ :=
          ih step.consistent (by omega)
        refine ⟨outcome, fs', disk', ?_, ⟨restStep.consistent, step.grown.trans restStep.grown⟩,
          (attached.extended positive nonempty free).trans step.grown.bits restExtended, ?_⟩
        · rw [run_bind_of_some added, ← longer]
          exact looped
        · intro succeeded
          rw [reached succeeded]
          omega
    · rw [if_neg short]
      exact ⟨some (), fs, disk, rfl, ⟨consistent, Grown.refl index fs disk⟩, Extended.refl _ _,
        fun _ => by omega⟩

theorem run_inodeGrowSectors (consistent : Consistent fs disk held)
    (inTable : index < maxInodes) (needSecs : Nat) : ∃ outcome fs' disk',
      (inodeGrowSectors index needSecs).run flatDevice fs (.running disk) =
        (outcome, fs', .running disk') ∧ GrowthStep index fs disk held fs' disk' ∧
      Extended fs ((fs.inodes index).dataSectors disk) ((fs'.inodes index).dataSectors disk') ∧
      (outcome = some () → ((fs'.inodes index).dataSectors disk').length =
          max needSecs ((fs.inodes index).dataSectors disk).length) := by
  have counted := (consistent.mappable inTable).run_inodeSectorCount consistent.formatted
  rw [inodeGrowSectors, run_inodeAt_bind, run_bind_of_some counted]
  exact run_growLoop inTable needSecs consistent (by omega)

end KnitOS.Fs
