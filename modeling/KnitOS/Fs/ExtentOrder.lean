import KnitOS.Fs.Growth

/-!
# The order of a file's sectors

`inode_add_extent` puts a run at the end of the extents or behind the first
extent that the run continues, whatever counts and sector numbers stand there.
-/

namespace KnitOS.Fs

open Lib.Program Storage

def Extent.lbas (extent : Extent) : List Nat :=
  (List.range extent.count).map fun position => u32 (extent.lba + position)

variable {limit : Nat}

theorem mapped_subset_lbas (extent : Extent) :
    ∀ sector ∈ extent.mapped limit, sector ∈ extent.lbas := by
  intro sector member
  obtain ⟨position, inside, isSector⟩ := List.mem_map.mp member
  have less := List.mem_range.mp inside
  have sane : extentCountSane limit extent.count ≤ extent.count := by
    unfold extentCountSane
    split
    · exact Nat.zero_le _
    · exact le_rfl
  exact List.mem_map.mpr ⟨position, List.mem_range.mpr (by omega), isSector⟩

def sectorCountOf (inode : Inode) (fs : FsState) (disk : Nat → Sector) : Option Nat :=
  ((inodeSectorCount inode).run flatDevice fs (.running disk)).1

/-- What `inode_map_sector` finds for a sector of a file. -/
def sectorAt (inode : Inode) (fs : FsState) (disk : Nat → Sector) (fileSector : Nat) : Option Nat :=
  ((inodeMapSector inode fileSector).run flatDevice fs (.running disk)).1

/-- The extent is in use and ends where a run starts. -/
def Extent.EndsAt (lba : Nat) (extent : Extent) : Prop :=
  extent.count ≠ 0 ∧ u32 (extent.lba + extent.count) = lba

instance decidableEndsAt (lba : Nat) (extent : Extent) : Decidable (extent.EndsAt lba) :=
  inferInstanceAs (Decidable (_ ∧ _))

/-- The extents up to the first one that ends where a run starts, or all. -/
def upTo (lba : Nat) : List Extent → List Extent
  | [] => []
  | extent :: rest =>
    if extent.EndsAt lba then [extent] else extent :: upTo lba rest

/-- How `inode_add_extent` changed the extents. -/
inductive Placed (lba count : Nat) (extents added : List Extent) : Prop where
  | atEnd (used empty rest : List Extent) (before : extents = used ++ empty)
      (after : added = used ++ ⟨lba, count⟩ :: rest)
      (apart : ∀ extent ∈ extents, ¬ extent.EndsAt lba)
      (isEmpty : ∀ extent ∈ empty, extent.count = 0) (restEmpty : ∀ extent ∈ rest, extent.count = 0)
  | behind (earlier : List Extent) (extent : Extent) (later : List Extent)
      (before : extents = earlier ++ extent :: later) (after : added =
        earlier ++ ⟨extent.lba, u32 (extent.count + count)⟩ :: later) (endsAt : extent.EndsAt lba)
      (apart : ∀ other ∈ earlier, ¬ other.EndsAt lba)

theorem Packed.all_empty {extent : Extent} {rest : List Extent}
    (packed : Packed (extent :: rest)) (empty : extent.count = 0) :
    ∀ later ∈ rest, later.count = 0 := by
  intro later member
  by_contra nonempty
  exact (List.pairwise_cons.mp packed).1 later member nonempty empty

variable {lba count : Nat}

theorem addToExtents_placed (extents : List Extent) :
    ∀ {added : List Extent}, Packed extents → addToExtents lba count extents = some added →
        Placed lba count extents added := by
  induction extents with
  | nil =>
    intro added _ inserted
    simp [addToExtents] at inserted
  | cons extent rest ih =>
    intro added packed inserted
    rw [addToExtents] at inserted
    by_cases empty : extent.count = 0
    · rw [if_pos empty] at inserted
      cases inserted
      have allEmpty : ∀ other ∈ extent :: rest, other.count = 0 :=
        List.forall_mem_cons.mpr ⟨empty, packed.all_empty empty⟩
      exact .atEnd [] (extent :: rest) rest rfl rfl
        (fun other member endsAt => endsAt.1 (allEmpty other member)) allEmpty
        (packed.all_empty empty)
    · rw [if_neg empty] at inserted
      by_cases adjacent : u32 (extent.lba + extent.count) = lba
      · rw [if_pos adjacent] at inserted
        cases inserted
        exact .behind [] extent rest rfl rfl ⟨empty, adjacent⟩
          (fun other member => absurd member List.not_mem_nil)
      · rw [if_neg adjacent] at inserted
        obtain ⟨restAdded, restInserted, addedEq⟩ := Option.map_eq_some_iff.mp inserted
        have notHere : ¬ extent.EndsAt lba := fun endsAt => adjacent endsAt.2
        cases ih (List.pairwise_cons.mp packed).2 restInserted with
        | atEnd used unused further before after apart isEmpty restEmpty =>
          refine .atEnd (extent :: used) unused further ?_ ?_ ?_ isEmpty restEmpty
          · rw [before, List.cons_append]
          · rw [← addedEq, after, List.cons_append]
          · exact List.forall_mem_cons.mpr ⟨notHere, apart⟩
        | behind earlier merged later before after endsAt apart =>
          refine .behind (extent :: earlier) merged later ?_ ?_ endsAt ?_
          · rw [before, List.cons_append]
          · rw [← addedEq, after, List.cons_append]
          · exact List.forall_mem_cons.mpr ⟨notHere, apart⟩

theorem apart_of_addToExtents {extents : List Extent}
    (full : addToExtents lba count extents = none) : ∀ extent ∈ extents, ¬ extent.EndsAt lba := by
  induction extents with
  | nil => exact fun extent member => absurd member List.not_mem_nil
  | cons extent rest ih =>
    rw [addToExtents] at full
    split at full
    · cases full
    · split at full
      · cases full
      · rename_i notAdjacent
        refine List.forall_mem_cons.mpr ⟨fun endsAt => notAdjacent endsAt.2, ih ?_⟩
        exact Option.map_eq_none_iff.mp full

theorem upTo_of_apart {extents : List Extent}
    (apart : ∀ extent ∈ extents, ¬ extent.EndsAt lba) : upTo lba extents = extents := by
  induction extents with
  | nil => rfl
  | cons extent rest ih =>
    obtain ⟨here, later⟩ := List.forall_mem_cons.mp apart
    rw [upTo, if_neg here, ih later]

theorem upTo_append {earlier later : List Extent}
    {extent : Extent} (endsAt : extent.EndsAt lba) (apart : ∀ other ∈ earlier, ¬ other.EndsAt lba) :
    upTo lba (earlier ++ extent :: later) = earlier ++ [extent] := by
  induction earlier with
  | nil =>
    rw [List.nil_append, upTo, if_pos endsAt]
    rfl
  | cons other rest ih =>
    obtain ⟨here, further⟩ := List.forall_mem_cons.mp apart
    rw [List.cons_append, upTo, if_neg here, ih further]
    rfl

/-- The sectors below the old end keep their place, and the run follows. -/
def Appends (limit old lba count : Nat) (sectors sectors' : List Nat) : Prop :=
  (∀ position, position < old →
    sectors'[position]?.filter (· < limit) =
      sectors[position]?.filter (· < limit)) ∧
  ∀ offset, offset < count →
    sectors'[old + offset]?.filter (· < limit) = some (lba + offset)

/-- A run that is put somewhere into a list without its first sector is
appended only if that place is the end. -/
theorem appends_iff {old : Nat} {before after : List Nat}
    (nonempty : count ≠ 0) (runInside : lba + count ≤ limit)
    (notBefore : lba ∉ before) (notAfter : lba ∉ after) :
    Appends limit old lba count (before ++ after) (before ++ (List.range' lba count ++ after)) ↔
      before.length = old := by
  constructor
  · intro appends
    have start := appends.2 0 (Nat.pos_of_ne_zero nonempty)
    have startAt := (Option.filter_eq_some_iff.mp start).1
    rw [Nat.add_zero, Nat.add_zero] at startAt
    rcases Nat.lt_trichotomy old before.length with less | same | more
    · rw [List.getElem?_append_left less] at startAt
      exact absurd (List.mem_of_getElem? startAt) notBefore
    · exact same.symm
    · rw [List.getElem?_append_right more.le] at startAt
      by_cases inRun : old - before.length < count
      · rw [List.getElem?_append_left (by rwa [List.length_range']),
          List.getElem?_range' inRun] at startAt
        have equal := Option.some.inj startAt
        omega
      · rw [List.getElem?_append_right (by rw [List.length_range']; omega)] at startAt
        exact absurd (List.mem_of_getElem? startAt) notAfter
  · intro same
    subst same
    refine ⟨?_, ?_⟩
    · intro position less
      rw [List.getElem?_append_left less, List.getElem?_append_left less]
    · intro offset less
      rw [List.getElem?_append_right (Nat.le_add_right _ _), Nat.add_sub_cancel_left,
        List.getElem?_append_left (by rwa [List.length_range']),
        List.getElem?_range' less, Nat.one_mul, Option.filter_some,
        if_pos (decide_eq_true (by omega))]

theorem not_appends {old : Nat} {sectors sectors' : List Nat}
    (nonempty : count ≠ 0) (missing : lba ∉ sectors') :
    ¬ Appends limit old lba count sectors sectors' := by
  intro appends
  have start := appends.2 0 (Nat.pos_of_ne_zero nonempty)
  exact missing (List.mem_of_getElem? (Option.filter_eq_some_iff.mp start).1)

/-- The condition under which a run comes behind all sectors of a file: the
extents up to the one that it continues have as many sectors as
`inode_sector_count` counts, and that extent does not grow beyond the disk. -/
def KeepsOrder (limit lba count : Nat) (extents : List Extent) : Prop :=
  (∀ extent ∈ upTo lba extents, extent.EndsAt lba →
    extent.count + count ≤ limit) ∧
  (mappedSectors limit (upTo lba extents)).length =
    min limit (mappedSectors limit extents).length

section

variable {limit lba count : Nat} (small : limit < 4294967296)
  (nonempty : count ≠ 0) (runInside : lba + count ≤ limit)

include small runInside

theorem mapped_run : (⟨lba, count⟩ : Extent).mapped limit = List.range' lba count := by
  have sane : extentCountSane limit count = count := if_neg (by omega)
  rw [Extent.mapped, sane, List.range'_eq_map_range]
  refine List.map_congr_left fun position inside => ?_
  have less := List.mem_range.mp inside
  exact u32_of_lt (by dsimp only; omega)

theorem mapped_merged {extent : Extent} (endsAt : extent.EndsAt lba)
    (short : extent.count + count ≤ limit) :
    (⟨extent.lba, u32 (extent.count + count)⟩ : Extent).mapped limit =
      extent.mapped limit ++ List.range' lba count := by
  have sane : extentCountSane limit extent.count = extent.count := if_neg (by omega)
  have saneMerged : extentCountSane limit (extent.count + count) =
    extent.count + count := if_neg (by omega)
  have run : (List.range count).map (fun position => u32 (extent.lba + (extent.count + position))) =
        List.range' lba count := by
    rw [List.range'_eq_map_range]
    refine List.map_congr_left fun position inside => ?_
    have less := List.mem_range.mp inside
    have start := endsAt.2
    unfold u32 at start ⊢
    omega
  rw [Extent.mapped, Extent.mapped, u32_of_lt (by omega), sane, saneMerged,
    List.range_add, List.map_append, List.map_map, ← run]
  rfl

theorem mapped_overlong {extent : Extent} (fits : extent.Fits) (endsAt : extent.EndsAt lba)
    (disjoint : ∀ sector ∈ List.range' lba count, sector ∉ extent.lbas)
    (long : limit < extent.count + count) :
    (⟨extent.lba, u32 (extent.count + count)⟩ : Extent).mapped limit = [] := by
  have bounded : extent.count + count ≤ 4294967296 := by
    by_contra wraps
    have countFits := fits.2
    -- the extent would reach around to the last sector of the run
    refine disjoint (lba + (count - 1)) (List.mem_range'_1.mpr (by omega))
      (List.mem_map.mpr ⟨extent.count + count - 1 - 4294967296, List.mem_range.mpr (by omega), ?_⟩)
    have start := endsAt.2
    unfold u32 at start ⊢
    omega
  have skipped : extentCountSane limit (u32 (extent.count + count)) = 0 := by
    by_cases whole : extent.count + count = 4294967296
    · rw [whole]
      exact if_neg (Nat.not_lt_zero limit)
    · rw [u32_of_lt (by omega)]
      exact if_pos long
  rw [Extent.mapped, skipped]
  rfl

include nonempty

theorem Placed.appends_iff {extents added : List Extent} (placed : Placed lba count extents added)
    (fits : ∀ extent ∈ extents, extent.Fits) (disjoint : ∀ extent ∈ extents,
      ∀ sector ∈ List.range' lba count, sector ∉ extent.lbas) :
    Appends limit (min limit (mappedSectors limit extents).length) lba count
        (mappedSectors limit extents) (mappedSectors limit added) ↔
      KeepsOrder limit lba count extents := by
  have startInRun : lba ∈ List.range' lba count := List.mem_range'_1.mpr (by omega)
  have notMapped : ∀ part : List Extent, part ⊆ extents → lba ∉ mappedSectors limit part := by
    intro part isPart member
    obtain ⟨extent, inPart, inExtent⟩ := List.mem_flatMap.mp member
    exact disjoint extent (isPart inPart) lba startInRun (mapped_subset_lbas extent lba inExtent)
  unfold KeepsOrder
  cases placed with
  | atEnd used empty rest before after apart isEmpty restEmpty =>
    have sectors : mappedSectors limit extents = mappedSectors limit used ++ [] := by
      rw [before, mappedSectors_append, mappedSectors_of_empty isEmpty]
    have sectors' : mappedSectors limit added = mappedSectors limit used ++
        (List.range' lba count ++ []) := by
      rw [after, mappedSectors_append, mappedSectors_cons,
        mapped_run small runInside, mappedSectors_of_empty restEmpty]
    have noneEnds : ∀ extent ∈ extents, extent.EndsAt lba → extent.count + count ≤ limit :=
      fun extent member endsAt => absurd endsAt (apart extent member)
    rw [upTo_of_apart apart, and_iff_right noneEnds, sectors, sectors',
      Fs.appends_iff nonempty runInside (notMapped used (before ▸ List.subset_append_left _ _))
        List.not_mem_nil, List.append_nil]
  | behind earlier extent later before after endsAt apart =>
    have inExtents : extent ∈ extents := by
      rw [before]
      exact List.mem_append_right _ List.mem_cons_self
    have earlierPart : earlier ⊆ extents := before ▸ List.subset_append_left _ _
    have laterPart : later ⊆ extents := by
      rw [before]
      exact fun other member =>
        List.mem_append_right _ (List.mem_cons_of_mem _ member)
    have upToPart : earlier ++ [extent] ⊆ extents :=
      List.append_subset.mpr ⟨earlierPart, List.cons_subset.mpr ⟨inExtents, List.nil_subset _⟩⟩
    have reaches : upTo lba extents = earlier ++ [extent] := by
      rw [before, upTo_append endsAt apart]
    have onlyExtent : (∀ other ∈ earlier ++ [extent], other.EndsAt lba →
        other.count + count ≤ limit) ↔ extent.count + count ≤ limit := by
      constructor
      · intro all
        exact all extent (List.mem_append_right _ List.mem_cons_self) endsAt
      · intro short
        exact List.forall_mem_append.mpr ⟨fun other inEarlier otherEnds =>
          absurd otherEnds (apart other inEarlier), List.forall_mem_singleton.mpr fun _ => short⟩
    rw [reaches, onlyExtent]
    by_cases short : extent.count + count ≤ limit
    · have sectors : mappedSectors limit extents = mappedSectors limit (earlier ++ [extent]) ++
            mappedSectors limit later := by
        rw [before, ← mappedSectors_append, List.append_assoc]
        rfl
      have sectors' : mappedSectors limit added = mappedSectors limit (earlier ++ [extent]) ++
            (List.range' lba count ++ mappedSectors limit later) := by
        rw [after, mappedSectors_append, mappedSectors_cons,
          mapped_merged small runInside endsAt short, mappedSectors_append,
          List.append_assoc, List.append_assoc]
        simp [mappedSectors]
      rw [and_iff_right short]
      conv_lhs => rw [sectors', sectors]
      rw [Fs.appends_iff nonempty runInside (notMapped _ upToPart)
        (notMapped _ laterPart), ← sectors]
    · have long : limit < extent.count + count := by omega
      have sectors' : mappedSectors limit added =
          mappedSectors limit earlier ++ mappedSectors limit later := by
        rw [after, mappedSectors_append, mappedSectors_cons,
          mapped_overlong small runInside (fits extent inExtents) endsAt
            (disjoint extent inExtents) long, List.nil_append]
      have missing : lba ∉ mappedSectors limit added := by
        rw [sectors', List.mem_append]
        rintro (inEarlier | inLater)
        · exact notMapped earlier earlierPart inEarlier
        · exact notMapped later laterPart inLater
      exact iff_of_false (not_appends nonempty missing) (fun both => short both.1)

end

theorem fsBitmapSet_frame (sector : Nat) (isOccupied : Bool) (fs : FsState) :
    (fsBitmapSet sector isOccupied fs).inodes = fs.inodes ∧
      (fsBitmapSet sector isOccupied fs).boot = fs.boot := by
  unfold fsBitmapSet
  split
  · split
    · exact ⟨rfl, rfl⟩
    · exact ⟨rfl, rfl⟩
  · exact ⟨rfl, rfl⟩

theorem run_fsAllocBlocks_one {fs fs' : FsState} {flat flat' : FlatDisk}
    {block : Nat} (allocated : (fsAllocBlocks 1).run flatDevice fs flat =
      (some block, fs', flat')) :
    fs.boot.allocBase ≤ block ∧ flat' = flat ∧ fs'.inodes = fs.inodes ∧ fs'.boot = fs.boot := by
  unfold fsAllocBlocks at allocated
  rw [run_reads_bind] at allocated
  by_cases ready : fs.bitmap.isSome = true ∧ 1 ≠ 0
  · simp only [id, require_of ready, run_pure_bind] at allocated
    cases found : findFreeRun (fsBitmapTest fs) 1 0 fs.boot.allocBase
      (fs.boot.totalSectors - fs.boot.allocBase) with
    | none =>
      rw [found] at allocated
      cases allocated
    | some start =>
      rw [found] at allocated
      cases allocated
      have above := (findFreeRun_spec _ 0 fs.boot.allocBase block (by omega)
        (by omega) (fun earlier above below => by omega) found).1
      exact ⟨by omega, rfl, fsBitmapSet_frame _ true fs⟩
  · simp only [id, require_of_not ready] at allocated
    cases allocated

theorem placed_of_inodeAddExtent {fs fs' : FsState}
    {disk disk' : Nat → Sector} {index : Nat} (base : fs.boot.allocBase ≠ 0)
    (lbaFits : lba < 4294967296) (countFits : count < 4294967296)
    (packed : Packed ((fs.inodes index).extents disk))
    (succeeded : (inodeAddExtent index lba count).run flatDevice fs
      (.running disk) = (some (), fs', .running disk')) : fs'.boot = fs.boot ∧
      Placed lba count ((fs.inodes index).extents disk) ((fs'.inodes index).extents disk') := by
  unfold inodeAddExtent at succeeded
  rw [run_inodeAt_bind] at succeeded
  cases inserted : (fs.inodes index).addDirect lba count with
  | some added =>
    rw [inserted] at succeeded
    cases succeeded
    refine ⟨rfl, addToExtents_placed _ packed ?_⟩
    rw [FsState.setInode_self]
    exact Inode.addDirect_extents inserted disk
  | none =>
    rw [inserted] at succeeded
    have full := Inode.addDirect_none inserted
    by_cases absent : (fs.inodes index).indirectLba = 0
    · obtain ⟨⟨outcome, marked, flat⟩, allocation⟩ : ∃ result,
        (fsAllocBlocks 1).run flatDevice fs (.running disk) = result := ⟨_, rfl⟩
      cases outcome with
      | none =>
        have noBlock : (indirectForAdd index).run flatDevice fs (.running disk) =
              (none, marked, flat) := by
          rw [indirectForAdd, run_inodeAt_bind, if_pos absent, run_bind_of_none allocation]
        simp only [run_bind_of_none noBlock] at succeeded
        cases succeeded
      | some block =>
        obtain ⟨above, rfl, sameInodes, sameBoot⟩ := run_fsAllocBlocks_one allocation
        have newBlock : (indirectForAdd index).run flatDevice fs (.running disk) =
              (some (block, List.replicate indirectMax ⟨0, 0⟩), marked.setInode index
                  { marked.inodes index with indirectLba := block }, .running disk) := by
          rw [indirectForAdd, run_inodeAt_bind, if_pos absent, run_bind_of_some allocation]
          rfl
        simp only [run_bind_of_some newBlock, addToExtents_empty, run_dWrite] at succeeded
        cases succeeded
        have present : block ≠ 0 := by omega
        refine ⟨sameBoot, .atEnd (fs.inodes index).direct []
          (List.replicate 63 ⟨0, 0⟩) ?_ ?_ ?_ ?_ ?_⟩
        · unfold Inode.extents Inode.indirectExtents
          rw [if_pos absent]
        · rw [FsState.setInode_self, Inode.extents_newIndirect lbaFits countFits present
            (addToExtents_empty lba count), sameInodes]
        · unfold Inode.extents Inode.indirectExtents
          rw [if_pos absent, List.append_nil]
          exact apart_of_addToExtents full
        · exact fun extent member => absurd member List.not_mem_nil
        · intro extent member
          rw [List.eq_of_mem_replicate member]
    · simp only [run_bind_of_some (run_indirectForAdd_present absent disk)] at succeeded
      cases insertedIndirect : addToExtents lba count
        (decodeExtents (disk (fs.inodes index).indirectLba)) with
      | none =>
        rw [insertedIndirect] at succeeded
        cases succeeded
      | some added =>
        simp only [insertedIndirect, run_dWrite] at succeeded
        cases succeeded
        exact ⟨rfl, addToExtents_placed _ packed
          (Inode.extents_rewritten lbaFits countFits absent inserted insertedIndirect)⟩

/-- Extents in use come first and share no sector; they are the uint32_t pairs
of the table. -/
structure WellFormed (extents : List Extent) : Prop where
  packed : Packed extents
  fits : ∀ extent ∈ extents, extent.Fits
  disjoint : extents.Pairwise fun first second =>
    ∀ sector ∈ first.lbas, sector ∉ second.lbas

/-- The sectors of a file are mapped as before, and those of the run follow. -/
def MappingKept (index lba count : Nat) (fs : FsState)
    (disk : Nat → Sector) (fs' : FsState) (disk' : Nat → Sector) : Prop :=
  ∀ old, sectorCountOf (fs.inodes index) fs disk = some old →
    (∀ fileSector, fileSector < old →
      sectorAt (fs'.inodes index) fs' disk' fileSector =
        sectorAt (fs.inodes index) fs disk fileSector) ∧
    ∀ offset, offset < count →
      sectorAt (fs'.inodes index) fs' disk' (old + offset) =
        some (lba + offset)

/-- `inode_add_extent` keeps the mapping of a file exactly if the extents up to
the one that the run continues hold all its sectors. -/
theorem inodeAddExtent_mappingKept_iff {fs fs' : FsState}
    {disk disk' : Nat → Sector} {index lba count : Nat} (total : fs.boot.totalSectors < 4294967296)
    (base : fs.boot.allocBase ≠ 0) (wellFormed : WellFormed ((fs.inodes index).extents disk))
    (nonempty : count ≠ 0) (runInside : lba + count ≤ fs.boot.totalSectors)
    (disjoint : ∀ extent ∈ (fs.inodes index).extents disk,
      ∀ sector ∈ List.range' lba count, sector ∉ extent.lbas)
    (succeeded : (inodeAddExtent index lba count).run flatDevice fs
      (.running disk) = (some (), fs', .running disk')) :
    MappingKept index lba count fs disk fs' disk' ↔ KeepsOrder fs.boot.totalSectors lba count
        ((fs.inodes index).extents disk) := by
  obtain ⟨sameBoot, placed⟩ := placed_of_inodeAddExtent base (by omega)
    (by omega) wellFormed.packed succeeded
  have positive : 0 < fs.boot.totalSectors := by omega
  have positive' : 0 < fs'.boot.totalSectors := by
    rw [sameBoot]
    exact positive
  rw [← placed.appends_iff total nonempty runInside wellFormed.fits disjoint]
  unfold MappingKept Appends
  unfold sectorCountOf sectorAt
  simp only [run_inodeSectorCount_mapped positive,
    run_inodeMapSector_mapped positive, run_inodeMapSector_mapped positive',
    sameBoot, Option.some.injEq, forall_eq']

/-- A file with sectors 1000 to 1007 and 2000 to 2007. -/
def fragmentedFile : Inode :=
  { Inode.zero with
    direct := [⟨1000, 8⟩, ⟨2000, 8⟩, ⟨0, 0⟩, ⟨0, 0⟩]
    direct_length := by decide }

/-- A disk on which only the sectors behind one run of the file are free. -/
def fragmentedFs (free : Nat) : FsState where
  boot := formatBoot 4096
  inodes _ := fragmentedFile
  initialized := true
  bitmap := some fun sector => sector < free ∨ free + 8 ≤ sector
  bitmapSectors := 1
  kernel :=
    { uid := 0
      gid := 0
      diskSizeSectors := 4096
      clock := fun _ => 0
      heap := fun _ _ => true
      stale := fun _ _ => 0
      asked := 0 }

def blankDisk : Nat → Sector := fun _ _ => 0

theorem fragmentedFile_extents : fragmentedFile.extents blankDisk =
      [⟨1000, 8⟩, ⟨2000, 8⟩, ⟨0, 0⟩, ⟨0, 0⟩] := rfl

theorem fragmentedFile_wellFormed : WellFormed (fragmentedFile.extents blankDisk) := by
  rw [fragmentedFile_extents]
  refine ⟨?_, ?_, ?_⟩
  · unfold Packed
    decide
  · unfold Extent.Fits
    decide
  · decide +kernel

/-- The run behind the last extent. -/
theorem inodeAddExtent_mappingKept_last : MappingKept 1 2008 8 (fragmentedFs 2008) blankDisk
      ((fragmentedFs 2008).setInode 1
        { fragmentedFile with
          direct := [⟨1000, 8⟩, ⟨2000, 16⟩, ⟨0, 0⟩, ⟨0, 0⟩]
          direct_length := by decide })
      blankDisk :=
  (inodeAddExtent_mappingKept_iff (by decide) (by decide)
    fragmentedFile_wellFormed (by decide) (by decide)
    (by rw [show (fragmentedFs 2008).inodes 1 = fragmentedFile from rfl,
          fragmentedFile_extents]; decide +kernel) rfl).mpr (by
      rw [show (fragmentedFs 2008).inodes 1 = fragmentedFile from rfl, fragmentedFile_extents]
      unfold KeepsOrder
      decide +kernel)

/-- The file after `inode_add_extent` merged the run at 1008 with its first
extent. -/
def permutedFile : Inode :=
  { fragmentedFile with
    direct := [⟨1000, 16⟩, ⟨2000, 8⟩, ⟨0, 0⟩, ⟨0, 0⟩]
    direct_length := by decide }

/-- The run behind the first extent: the file sectors from 8 on, which were the
sectors from 2000 on, become the new and unwritten ones from 1008 on.  This is
what `inode_grow_sectors` does when only the sectors behind the first extent are
free. -/
theorem inodeAddExtent_moves_sectors :
    let fs := fragmentedFs 1008
    let fs' := fs.setInode 1 permutedFile
    WellFormed ((fs.inodes 1).extents blankDisk) ∧
      (∀ extent ∈ (fs.inodes 1).extents blankDisk,
        ∀ sector ∈ List.range' 1008 8, sector ∉ extent.lbas) ∧
      (inodeAddExtent 1 1008 8).run flatDevice fs (.running blankDisk) =
        (some (), fs', .running blankDisk) ∧
      ¬ MappingKept 1 1008 8 fs blankDisk fs' blankDisk ∧
      sectorAt (fs.inodes 1) fs blankDisk 8 = some 2000 ∧
      sectorAt (fs'.inodes 1) fs' blankDisk 8 = some 1008 ∧
      ((inodeGrowSectors 1 24).run flatDevice fs
        (.running blankDisk)).2.1.inodes 1 = permutedFile := by
  have counted : sectorCountOf ((fragmentedFs 1008).inodes 1)
      (fragmentedFs 1008) blankDisk = some 16 := by
    decide +kernel
  have before : sectorAt ((fragmentedFs 1008).inodes 1)
      (fragmentedFs 1008) blankDisk 8 = some 2000 := by
    decide +kernel
  have after : sectorAt (((fragmentedFs 1008).setInode 1 permutedFile).inodes 1)
      ((fragmentedFs 1008).setInode 1 permutedFile) blankDisk 8 =
        some 1008 := by
    decide +kernel
  refine ⟨fragmentedFile_wellFormed, ?_, rfl, ?_, before, after, ?_⟩
  · rw [show (fragmentedFs 1008).inodes 1 = fragmentedFile from rfl,
      fragmentedFile_extents]
    decide +kernel
  · intro kept
    have same := (kept 16 counted).1 8 (by decide)
    rw [before, after] at same
    cases same
  · decide +kernel

end KnitOS.Fs
