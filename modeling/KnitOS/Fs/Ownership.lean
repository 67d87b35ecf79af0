import KnitOS.Fs.Extents
import KnitOS.Lib.Exclusive

/-!
# Who owns which sector

Every inode owns its data sectors, its indirect block and its attribute block;
a run that is not attached yet is held by the running function.  No sector has
two owners, and the bit of every owned sector is set.
-/

namespace KnitOS.Fs

open Lib Lib.Program Storage

/-- The sectors of each owner: the inodes of the table, and the running
function as owner number `maxInodes`. -/
def claims (fs : FsState) (disk : Nat → Sector) (held : List Nat) (owner : Nat) : List Nat :=
  if owner < maxInodes then (fs.inodes owner).ownedSectors disk
  else if owner = maxInodes then held
  else []

/-- No sector has two owners, and owned sectors are marked in the bitmap. -/
structure Owned (fs : FsState) (disk : Nat → Sector) (held : List Nat) : Prop where
  exclusive : Exclusive (claims fs disk held)
  marked : ∀ owner, ∀ sector ∈ claims fs disk held owner,
    fs.base ≤ sector ∧ sector < fs.boot.totalSectors ∧ fsBitmapTest fs sector = true

section

variable {fs fs' : FsState} {disk disk' : Nat → Sector} {held held' : List Nat}

theorem claims_inode {index : Nat} (inTable : index < maxInodes) :
    claims fs disk held index = (fs.inodes index).ownedSectors disk := if_pos inTable

theorem claims_held : claims fs disk held maxInodes = held := by
  simp [claims]

theorem Inode.ownedSectors_congr {inode : Inode}
    (same : ∀ sector ∈ inode.ownedSectors disk, disk' sector = disk sector) :
    inode.ownedSectors disk' = inode.ownedSectors disk := by
  unfold Inode.ownedSectors
  rw [Inode.dataSectors_congr]
  intro present
  exact same _ (Inode.mem_ownedSectors_indirect disk present)

/-- Owners other than one inode and the running function keep their claims
when their inodes and their sectors stay the same. -/
theorem claims_congr {index : Nat}
    (inodes : ∀ other, other ≠ index → fs'.inodes other = fs.inodes other)
    (sectors : ∀ other, other ≠ index → other < maxInodes →
      ∀ sector ∈ (fs.inodes other).ownedSectors disk, disk' sector = disk sector) :
    ∀ owner, owner ≠ index → owner ≠ maxInodes →
      claims fs' disk' held' owner = claims fs disk held owner := by
  intro owner notIndex notHeld
  unfold claims
  by_cases inTable : owner < maxInodes
  · rw [if_pos inTable, if_pos inTable, inodes owner notIndex,
      Inode.ownedSectors_congr (sectors owner notIndex inTable)]
  · rw [if_neg inTable, if_neg inTable, if_neg notHeld, if_neg notHeld]

end

namespace Owned

variable {fs fs' : FsState} {disk disk' : Nat → Sector}
  {held held' run : List Nat} {index : Nat} (owned : Owned fs disk held)
include owned

theorem inode_marked (inTable : index < maxInodes) : ∀ sector ∈ (fs.inodes index).ownedSectors disk,
    fs.base ≤ sector ∧ sector < fs.boot.totalSectors ∧ fsBitmapTest fs sector = true := by
  intro sector member
  apply owned.marked index
  rw [claims_inode inTable]
  exact member

theorem held_marked : ∀ sector ∈ held,
    fs.base ≤ sector ∧ sector < fs.boot.totalSectors ∧ fsBitmapTest fs sector = true := by
  intro sector member
  apply owned.marked maxInodes
  rw [claims_held]
  exact member

theorem inode_nodup (inTable : index < maxInodes) :
    ((fs.inodes index).ownedSectors disk).Nodup := by
  have nodup := owned.exclusive.nodup index
  rwa [claims_inode inTable] at nodup

theorem inode_apart {other : Nat}
    (inTable : index < maxInodes) (otherInTable : other < maxInodes) (different : index ≠ other) :
    ∀ sector ∈ (fs.inodes index).ownedSectors disk,
      sector ∉ (fs.inodes other).ownedSectors disk := by
  have apart := owned.exclusive.apart index other different
  rwa [claims_inode inTable, claims_inode otherInTable] at apart

theorem held_apart (inTable : index < maxInodes) :
    ∀ sector ∈ held, sector ∉ (fs.inodes index).ownedSectors disk := by
  have different : maxInodes ≠ index := by omega
  have apart := owned.exclusive.apart maxInodes index different
  rwa [claims_held, claims_inode inTable] at apart

theorem mappable (inTable : index < maxInodes) : Mappable fs (fs.inodes index) disk := by
  have nodup := owned.inode_nodup inTable
  constructor
  · exact (List.nodup_append.mp nodup).1
  · intro sector member
    exact (owned.inode_marked inTable sector (List.mem_append_left _ member)).2.1

theorem alloc (formatted : Formatted fs) (nodup : run.Nodup)
    (inside : ∀ sector ∈ run, fs.base ≤ sector ∧ sector < fs.boot.totalSectors)
    (free : ∀ sector ∈ run, fsBitmapTest fs sector = false) :
    Owned (assignBits run true fs) disk (run ++ held) := by
  have unowned : ∀ sector ∈ run, ∀ owner, sector ∉ claims fs disk held owner := by
    intro sector member owner claimed
    have isMarked := (owned.marked owner sector claimed).2.2
    rw [free sector member] at isMarked
    cases isMarked
  have others : ∀ owner, owner ≠ maxInodes →
      claims (assignBits run true fs) disk (run ++ held) owner = claims fs disk held owner := by
    intro owner notHeld
    unfold claims
    rw [if_neg notHeld, if_neg notHeld]
    rfl
  constructor
  · apply owned.exclusive.replace others
    · rw [claims_held, List.nodup_append]
      have heldNodup := owned.exclusive.nodup maxInodes
      rw [claims_held] at heldNodup
      refine ⟨nodup, heldNodup, ?_⟩
      intro first firstMember second secondMember same
      apply unowned first firstMember maxInodes
      rw [claims_held, same]
      exact secondMember
    · rw [claims_held, claims_held]
      intro sector member
      rcases List.mem_append.mp member with inRun | inHeld
      · exact Or.inr (unowned sector inRun)
      · exact Or.inl inHeld
  · intro owner sector member
    have stillMarked : fsBitmapTest fs sector = true →
        fsBitmapTest (assignBits run true fs) sector = true := by
      intro isMarked
      rw [fsBitmapTest_assignBits _ _ formatted.bitmap, isMarked]
      simp
    by_cases isHeld : owner = maxInodes
    · rw [isHeld, claims_held] at member
      rcases List.mem_append.mp member with inRun | inHeld
      · obtain ⟨above, below⟩ := inside sector inRun
        refine ⟨above, below, ?_⟩
        rw [fsBitmapTest_assignBits _ _ formatted.bitmap, if_pos ⟨below, inRun⟩]
      · obtain ⟨above, below, isMarked⟩ := owned.held_marked sector inHeld
        exact ⟨above, below, stillMarked isMarked⟩
    · rw [others owner isHeld] at member
      obtain ⟨above, below, isMarked⟩ := owned.marked owner sector member
      exact ⟨above, below, stillMarked isMarked⟩

omit owned

theorem allocOne (owned : Owned fs disk held) (formatted : Formatted fs) {block : Nat}
    (above : fs.base ≤ block) (below : block < fs.boot.totalSectors)
    (free : fsBitmapTest fs block = false) :
    Owned (assignBits [block] true fs) disk ([block] ++ held) :=
  owned.alloc formatted (List.nodup_singleton block)
    (List.forall_mem_singleton.mpr ⟨above, below⟩) (List.forall_mem_singleton.mpr free)

theorem free (owned : Owned fs disk (run ++ held)) (formatted : Formatted fs) :
    Owned (assignBits run false fs) disk held := by
  have fewer : ∀ owner, (claims (assignBits run false fs) disk held owner).Sublist
      (claims fs disk (run ++ held) owner) := by
    intro owner
    by_cases isHeld : owner = maxInodes
    · rw [isHeld, claims_held, claims_held]
      exact List.sublist_append_right run held
    · unfold claims
      rw [if_neg isHeld, if_neg isHeld]
      exact List.Sublist.refl _
  have bothNodup := owned.exclusive.nodup maxInodes
  rw [claims_held, List.nodup_append] at bothNodup
  refine ⟨owned.exclusive.mono fewer, ?_⟩
  intro owner sector member
  have before := (fewer owner).subset member
  have notFreed : sector ∉ run := by
    intro inRun
    by_cases isHeld : owner = maxInodes
    · rw [isHeld, claims_held] at member
      exact bothNodup.2.2 sector inRun sector member rfl
    · refine owned.exclusive.apart maxInodes owner (Ne.symm isHeld) sector ?_ before
      rw [claims_held]
      exact List.mem_append_left _ inRun
  obtain ⟨above, below, isMarked⟩ := owned.marked owner sector before
  refine ⟨above, below, ?_⟩
  rw [fsBitmapTest_assignBits _ _ formatted.bitmap, if_neg (fun both => notFreed both.2)]
  exact isMarked

theorem exchange (owned : Owned fs disk held) (inTable : index < maxInodes)
    (boot : fs'.boot = fs.boot) (bits : ∀ sector, fsBitmapTest fs' sector = fsBitmapTest fs sector)
    (inodes : ∀ other, other ≠ index → fs'.inodes other = fs.inodes other)
    (sectors : ∀ other, other ≠ index → other < maxInodes →
      ∀ sector ∈ (fs.inodes other).ownedSectors disk, disk' sector = disk sector) (exchanged :
      ((fs'.inodes index).ownedSectors disk' ++ held').Perm
        ((fs.inodes index).ownedSectors disk ++ held)) : Owned fs' disk' held' := by
  have different : index ≠ maxInodes := by omega
  have others : ∀ owner, owner ≠ index → owner ≠ maxInodes →
    claims fs' disk' held' owner = claims fs disk held owner := claims_congr inodes sectors
  have claimsExchanged : (claims fs' disk' held' index ++ claims fs' disk' held' maxInodes).Perm
        (claims fs disk held index ++ claims fs disk held maxInodes) := by
    rw [claims_held, claims_held, claims_inode inTable, claims_inode inTable]
    exact exchanged
  constructor
  · exact owned.exclusive.exchange different others claimsExchanged
  · intro owner sector member
    have someOwner : ∃ before, sector ∈ claims fs disk held before := by
      by_cases one : owner = index ∨ owner = maxInodes
      · have inBoth : sector ∈ claims fs' disk' held' index ++
              claims fs' disk' held' maxInodes := by
          rcases one with isIndex | isHeld
          · exact List.mem_append_left _ (isIndex ▸ member)
          · exact List.mem_append_right _ (isHeld ▸ member)
        rw [claimsExchanged.mem_iff] at inBoth
        rcases List.mem_append.mp inBoth with inIndex | inHeld
        · exact ⟨index, inIndex⟩
        · exact ⟨maxInodes, inHeld⟩
      · push Not at one
        rw [others owner one.1 one.2] at member
        exact ⟨owner, member⟩
    obtain ⟨before, beforeMember⟩ := someOwner
    have isMarked := owned.marked before sector beforeMember
    rw [bits]
    unfold FsState.base at isMarked ⊢
    rw [boot]
    exact isMarked

end Owned

/-- Empty entries stand at the end only. -/
def Packed (extents : List Extent) : Prop :=
  extents.Pairwise fun earlier later => later.count ≠ 0 → earlier.count ≠ 0

/-- The invariant of the whole file system: the layout of a new disk, sectors
with one owner each, and extents without gaps. -/
structure Consistent (fs : FsState) (disk : Nat → Sector) (held : List Nat) : Prop where
  formatted : Formatted fs
  owned : Owned fs disk held
  packed : ∀ index, index < maxInodes → Packed ((fs.inodes index).extents disk)

variable {held : List Nat} {disk : Nat → Sector} {fs : FsState}

theorem Consistent.mappable (consistent : Consistent fs disk held) {index : Nat}
    (inTable : index < maxInodes) : Mappable fs (fs.inodes index) disk :=
  consistent.owned.mappable inTable

/-- Two inodes own the same blocks. -/
structure Inode.SameBlocks (first second : Inode) : Prop where
  direct : first.direct = second.direct
  indirectLba : first.indirectLba = second.indirectLba
  xattrLba : first.xattrLba = second.xattrLba

namespace Inode.SameBlocks

variable {first second : Inode} (same : first.SameBlocks second)
include same

theorem dataSectors (disk : Nat → Sector) : first.dataSectors disk = second.dataSectors disk := by
  unfold Inode.dataSectors Inode.indirectExtents
  rw [same.direct, same.indirectLba]

theorem extents (disk : Nat → Sector) : first.extents disk = second.extents disk := by
  unfold Inode.extents Inode.indirectExtents
  rw [same.direct, same.indirectLba]

theorem ownedSectors (disk : Nat → Sector) :
    first.ownedSectors disk = second.ownedSectors disk := by
  unfold Inode.ownedSectors Inode.indirectSectors Inode.xattrSectors
  rw [same.dataSectors disk, same.indirectLba, same.xattrLba]

end Inode.SameBlocks

variable (consistent : Consistent fs disk held)
include consistent

theorem Consistent.of_same_blocks {fs' : FsState}
    (boot : fs'.boot = fs.boot.withInodeCount fs'.boot.inodeCount)
    (initialized : fs'.initialized = fs.initialized)
    (bitmap : fs'.bitmap = fs.bitmap)
    (bitmapSectors : fs'.bitmapSectors = fs.bitmapSectors)
    (blocks : ∀ index, index < maxInodes → (fs'.inodes index).SameBlocks (fs.inodes index)) :
    Consistent fs' disk held := by
  have total : fs'.boot.totalSectors = fs.boot.totalSectors := by
    rw [boot]
    rfl
  have base : fs'.base = fs.base := by
    unfold FsState.base
    rw [boot]
    rfl
  have sameClaims : claims fs' disk held = claims fs disk held := by
    funext owner
    unfold claims
    by_cases inTable : owner < maxInodes
    · rw [if_pos inTable, if_pos inTable, (blocks owner inTable).ownedSectors disk]
    · rw [if_neg inTable, if_neg inTable]
  have sameBits : ∀ sector, fsBitmapTest fs' sector = fsBitmapTest fs sector := by
    intro sector
    unfold fsBitmapTest
    rw [bitmap, total]
  refine ⟨consistent.formatted.of_same boot initialized (congrArg _ bitmap) bitmapSectors,
    ⟨?_, ?_⟩, ?_⟩
  · rw [sameClaims]
    exact consistent.owned.exclusive
  · rw [sameClaims]
    intro owner sector member
    rw [base, total, sameBits]
    exact consistent.owned.marked owner sector member
  · intro index inTable
    rw [(blocks index inTable).extents disk]
    exact consistent.packed index inTable

theorem Consistent.ask : Consistent fs.ask disk held :=
  consistent.of_same_blocks rfl rfl rfl rfl fun _ _ => ⟨rfl, rfl, rfl⟩

theorem Consistent.setInode {index : Nat}
    {inode : Inode} (same : inode.SameBlocks (fs.inodes index)) :
    Consistent (fs.setInode index inode) disk held := by
  refine consistent.of_same_blocks rfl rfl rfl rfl ?_
  intro other _
  by_cases isIndex : other = index
  · rw [isIndex, FsState.setInode_self]
    exact same
  · rw [fs.setInode_other index inode isIndex]
    exact ⟨rfl, rfl, rfl⟩

theorem Consistent.packed_of_others {fs' : FsState} {index : Nat}
    (others : ∀ other, other ≠ index → fs'.inodes other = fs.inodes other)
    (packed : Packed ((fs'.inodes index).extents disk)) :
    ∀ other, other < maxInodes → Packed ((fs'.inodes other).extents disk) := by
  intro other inTable
  by_cases same : other = index
  · rw [same]
    exact packed
  · rw [others other same]
    exact consistent.packed other inTable

end KnitOS.Fs
