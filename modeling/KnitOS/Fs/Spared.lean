import KnitOS.Fs.Intact

/-!
# Inodes that a call leaves alone

What a user sees of an inode stays the same when the inode and its sectors do,
apart from link count, parent and times.
-/

namespace KnitOS.Fs

open Lib.Program Storage

/-- The data and the attributes of an inode. -/
structure FileView where
  data : List UInt8
  target : List UInt8
  size : Nat
  mode : Nat
  uid : Nat
  gid : Nat
  xattr : Option Sector

def fileView (fs : FsState) (disk : Nat → Sector) (index : Nat) : FileView where
  data := fileBytes fs disk index
  target := (fs.inodes index).symlinkInline
  size := (fs.inodes index).sizeBytes
  mode := (fs.inodes index).mode
  uid := (fs.inodes index).uid
  gid := (fs.inodes index).gid
  xattr :=
    if (fs.inodes index).xattrLba = 0 then
      none
    else
      some (disk (fs.inodes index).xattrLba)

/-- An inode without its link count, its parent and the times. -/
def Inode.lasting (inode : Inode) : Inode :=
  { inode with nlink := 0, parent := 0, atime := 0, mtime := 0, ctime := 0 }

theorem Inode.fields_of_lasting {first second : Inode} (same : first.lasting = second.lasting) :
    first.mode = second.mode ∧ first.uid = second.uid ∧
      first.gid = second.gid ∧ first.sizeBytes = second.sizeBytes ∧
      first.symlinkInline = second.symlinkInline := by
  have mode := congrArg Inode.mode same
  have uid := congrArg Inode.uid same
  have gid := congrArg Inode.gid same
  have sizeBytes := congrArg Inode.sizeBytes same
  have symlinkInline := congrArg Inode.symlinkInline same
  exact ⟨mode, uid, gid, sizeBytes, symlinkInline⟩

/-- An inode and its sectors are unchanged, apart from link count, parent and
times. -/
structure Spared (index : Nat) (fs : FsState) (disk : Nat → Sector)
    (fs' : FsState) (disk' : Nat → Sector) : Prop where
  inode : (fs'.inodes index).lasting = (fs.inodes index).lasting
  sectors : ∀ sector ∈ (fs.inodes index).ownedSectors disk, disk' sector = disk sector

namespace Spared

variable {index : Nat} {fs fs' fs'' : FsState}
  {disk disk' disk'' : Nat → Sector}

theorem refl (index : Nat) (fs : FsState) (disk : Nat → Sector) : Spared index fs disk fs disk :=
  ⟨rfl, fun _ _ => rfl⟩

theorem blocks (spared : Spared index fs disk fs' disk') :
    (fs'.inodes index).SameBlocks (fs.inodes index) := by
  have direct := congrArg Inode.direct spared.inode
  have indirectLba := congrArg Inode.indirectLba spared.inode
  have xattrLba := congrArg Inode.xattrLba spared.inode
  exact ⟨direct, indirectLba, xattrLba⟩

theorem ownedSectors (spared : Spared index fs disk fs' disk') :
    (fs'.inodes index).ownedSectors disk' = (fs.inodes index).ownedSectors disk := by
  rw [spared.blocks.ownedSectors]
  exact Inode.ownedSectors_congr spared.sectors

theorem trans (first : Spared index fs disk fs' disk')
    (second : Spared index fs' disk' fs'' disk'') : Spared index fs disk fs'' disk'' := by
  refine ⟨second.inode.trans first.inode, ?_⟩
  intro sector member
  have memberAfter : sector ∈ (fs'.inodes index).ownedSectors disk' := by
    rw [first.ownedSectors]
    exact member
  rw [second.sectors sector memberAfter, first.sectors sector member]

variable (spared : Spared index fs disk fs' disk')
include spared

theorem occupied : (fs'.inodes index).occupied = (fs.inodes index).occupied := by
  have flags := congrArg Inode.flags spared.inode
  exact Inode.occupied_congr flags

theorem fsAccessOk (uid : fs'.kernel.uid = fs.kernel.uid)
    (gid : fs'.kernel.gid = fs.kernel.gid) (wantWrite : Bool) :
    fsAccessOk fs' index wantWrite = fsAccessOk fs index wantWrite := by
  obtain ⟨mode, owner, group, _, _⟩ := Inode.fields_of_lasting spared.inode
  have flags := congrArg Inode.flags spared.inode
  exact fsAccessOk_congr uid gid flags mode owner group wantWrite

theorem dataSectors :
    (fs'.inodes index).dataSectors disk' = (fs.inodes index).dataSectors disk := by
  rw [spared.blocks.dataSectors]
  apply Inode.dataSectors_congr
  intro present
  exact spared.sectors _ (Inode.mem_ownedSectors_indirect disk present)

theorem fileView_eq : fileView fs' disk' index = fileView fs disk index := by
  have dataMember : ∀ sector ∈ (fs.inodes index).dataSectors disk,
      disk' sector = disk sector := fun sector member =>
    spared.sectors sector (List.mem_append_left _ member)
  have sameBlocks : fileBlocks fs' disk' index = fileBlocks fs disk index := by
    unfold fileBlocks
    rw [spared.dataSectors]
    exact List.map_congr_left dataMember
  obtain ⟨mode, owner, group, size, target⟩ := Inode.fields_of_lasting spared.inode
  have readable : readableSize fs' disk' index = readableSize fs disk index := by
    unfold readableSize
    rw [size, spared.dataSectors]
  have bytes : fileBytes fs' disk' index = fileBytes fs disk index := by
    unfold fileBytes
    rw [readable, sameBlocks]
  unfold fileView
  rw [bytes, target, size, mode, owner, group, spared.blocks.xattrLba]
  congr 1
  split
  · rfl
  · rename_i present
    have member : (fs.inodes index).xattrLba ∈ (fs.inodes index).ownedSectors disk := by
      unfold Inode.ownedSectors Inode.xattrSectors
      rw [if_neg present]
      simp
    rw [spared.sectors _ member]

omit spared

theorem of_setInode {other : Nat} {inode : Inode}
    (same : inode.lasting = (fs.inodes other).lasting) :
    Spared index fs disk (fs.setInode other inode) disk := by
  refine ⟨?_, fun _ _ => rfl⟩
  by_cases isOther : index = other
  · rw [isOther, FsState.setInode_self]
    exact same
  · rw [FsState.setInode_other _ _ _ isOther]

theorem of_other {other : Nat} (inode : Inode) (different : index ≠ other) :
    Spared index fs disk (fs.setInode other inode) disk := by
  refine ⟨?_, fun _ _ => rfl⟩
  rw [FsState.setInode_other _ _ _ different]

theorem of_unread (unread : (fs'.inodes index).unread = (fs.inodes index).unread)
    (sectors : ∀ sector ∈ (fs.inodes index).ownedSectors disk,
      disk' sector = disk sector) : Spared index fs disk fs' disk' := by
  have throughUnread : ∀ inode : Inode, inode.lasting = inode.unread.lasting := fun _ => rfl
  refine ⟨?_, sectors⟩
  rw [throughUnread, unread, ← throughUnread]

end Spared

section

variable {fs : FsState} {disk : Nat → Sector}

theorem Consistent.observes_requireDeletable (consistent : Consistent fs disk []) (index : Nat) :
    Observes (requireDeletable index) fs disk := by
  apply yields_reads_bind
  apply yields_ite
  · intro _
    apply (consistent.observes_dirIsEmpty index).bind
    intro empty fs' _
    exact observes_require _ fs' disk
  · intro _
    exact observes_pure () fs disk

theorem Intact.leaves_touchChanged (intact : Intact fs disk) (index : Nat) :
    Leaves (touchChanged index) fs disk fun _ fs' disk' =>
      Intact fs' disk' ∧ ∀ other, Spared other fs disk fs' disk' := by
  have asked : ∀ other, Spared other fs disk fs.ask disk := fun _ => ⟨rfl, fun _ _ => rfl⟩
  have stamped : ∀ other, Spared other fs.ask disk (fs.ask.setInode index
        { fs.inodes index with
          ctime := u32 (fs.kernel.clock fs.kernel.asked) }) disk :=
    fun _ => Spared.of_setInode rfl
  exact ⟨some (), _, disk, rfl, intact.ask.setInode ⟨rfl, rfl, rfl⟩ rfl,
    fun other => (asked other).trans (stamped other)⟩

theorem Intact.leaves_dropLink (intact : Intact fs disk) {index : Nat}
    (inTable : index < maxInodes) (notRoot : index ≠ rootIno) :
    Leaves (dropLink index) fs disk fun _ fs' disk' =>
      Intact fs' disk' ∧
      ∀ other, Spared other fs disk fs' disk' ∨
        other = index ∧ (fs'.inodes other).occupied = false := by
  apply yields_reads_bind
  apply yields_ite
  · intro _
    apply yields_modify_bind
    have dropped : Intact (fs.setInode index
          { fs.inodes index with nlink := (fs.inodes index).nlink - 1 }) disk :=
      intact.setInode ⟨rfl, rfl, rfl⟩ rfl
    apply (dropped.leaves_touchChanged index).mono
    rintro _ fs' disk' ⟨after, spared⟩
    refine ⟨after, fun other => Or.inl ?_⟩
    have unlinked : Spared other fs disk (fs.setInode index
          { fs.inodes index with nlink := (fs.inodes index).nlink - 1 }) disk :=
      Spared.of_setInode rfl
    exact unlinked.trans (spared other)
  · intro _
    obtain ⟨outcome, fs', disk', ran, after⟩ := intact.keeps_releaseInode inTable notRoot
    refine ⟨outcome, fs', disk', ran, after, ?_⟩
    rw [intact.consistent.run_releaseInode inTable] at ran
    cases ran
    intro other
    by_cases same : other = index
    · right
      refine ⟨same, ?_⟩
      rw [same]
      dsimp only [releasedState]
      rw [assignBits_inodes, FsState.setInode_self]
      rfl
    · left
      refine ⟨?_, fun _ _ => rfl⟩
      dsimp only [releasedState]
      rw [assignBits_inodes, FsState.setInode_other _ _ _ same, clearedState_other same]

end

end KnitOS.Fs
