import KnitOS.Fs.Shrink
import KnitOS.Lib.Yields

/-!
# What functions leave alone

Every function of the file system writes the metadata out at the end, which
changes the disk below the data area only.  Above it, a lookup changes
nothing but access times, and a change to a file concerns its own inode and
its own sectors.
-/

namespace KnitOS.Fs

open Lib Lib.Program Storage

/-- From these variables and this disk, a function of the file system ends
with the postcondition. -/
abbrev Leaves {α : Type} (program : FsProgram α) (fs : FsState) (disk : Nat → Sector)
    (post : Option α → FsState → (Nat → Sector) → Prop) : Prop :=
  program.Yields flatDevice FlatDisk.running fs disk post

theorem leaves_and {α : Type} {program : FsProgram α} {fs : FsState} {disk : Nat → Sector}
    {first second : Option α → FsState → (Nat → Sector) → Prop}
    (ends : Leaves program fs disk first) (endsToo : Leaves program fs disk second) :
    Leaves program fs disk fun outcome fs' disk' =>
      first outcome fs' disk' ∧ second outcome fs' disk' := by
  obtain ⟨outcome, fs', disk', ran, holds⟩ := ends
  obtain ⟨outcome', fs'', disk'', ranToo, holdsToo⟩ := endsToo
  rw [ran] at ranToo
  cases ranToo
  exact ⟨outcome, fs', disk', ran, holds, holdsToo⟩

/-- The check at the start of a call passes on a mounted file system. -/
theorem yields_initialized {α : Type} {fs : FsState} {disk : Nat → Sector}
    {next : FsState → Unit → FsProgram α} {post : Option α → FsState → (Nat → Sector) → Prop}
    (initialized : fs.initialized = true) (rest : Leaves (next fs ()) fs disk post) :
    Leaves (reads id >>= fun fs => require (fs.initialized = true) >>= next fs) fs disk post := by
  apply yields_reads_bind
  rw [id_eq, require_of initialized]
  exact Yields.bind_of_run (run_pure _ _ _ _) rest

theorem occupied_of_fsAccessOk {fs : FsState} {index : Nat} {wantWrite : Bool}
    (access : fsAccessOk fs index wantWrite = true) : (fs.inodes index).occupied = true := by
  simp only [fsAccessOk, Bool.and_eq_true] at access
  exact access.1.2

theorem fsAccessOk_root {fs : FsState} {index : Nat} (valid : validIndex index = true)
    (occupied : (fs.inodes index).occupied = true) (isRoot : fs.kernel.uid = 0)
    (wantWrite : Bool) : fsAccessOk fs index wantWrite = true := by
  simp [fsAccessOk, valid, occupied, isRoot]

theorem ne_of_free {fs : FsState} {index other : Nat} (free : (fs.inodes index).occupied = false)
    (occupied : (fs.inodes other).occupied = true) : index ≠ other := by
  rintro rfl
  rw [occupied] at free
  cases free

theorem run_dWriteAll (fs : FsState) (writes : List (Nat × Sector)) : ∀ (disk : Nat → Sector),
    (dWriteAll writes).run flatDevice fs (.running disk) =
      (some (), fs, .running (imageAfter disk writes)) := by
  induction writes with
  | nil =>
    intro disk
    rfl
  | cons write rest ih =>
    intro disk
    rw [dWriteAll, run_dWrite_bind, ih]
    rfl

/-- The data area is the same on two disks. -/
def SameData (fs : FsState) (disk disk' : Nat → Sector) : Prop :=
  ∀ sector, fs.base ≤ sector → disk' sector = disk sector

variable {disk : Nat → Sector} {fs : FsState}

theorem SameData.trans {disk' disk'' : Nat → Sector}
    (first : SameData fs disk disk') (second : SameData fs disk' disk'') :
    SameData fs disk disk'' := by
  intro sector above
  rw [second sector above, first sector above]

theorem sameData_imageAfter (disk : Nat → Sector)
    {writes : List (Nat × Sector)} (below : ∀ write ∈ writes, write.1 < fs.base) :
    SameData fs disk (imageAfter disk writes) := by
  intro sector above
  apply imageAfter_of_not_written
  intro write member same
  have := below write member
  omega

theorem sameData_update (disk : Nat → Sector) {lba : Nat} (bytes : Sector) (below : lba < fs.base) :
    SameData fs disk (Function.update disk lba bytes) := by
  intro sector above
  apply Function.update_of_ne
  omega

theorem sameData_dWriteN (disk : Nat → Sector)
    {start count : Nat} (bytes : Nat → Sector) (below : start + count ≤ fs.base) : SameData fs disk
      (imageAfter disk ((List.range' start count).zip ((List.range' 0 count).map bytes))) := by
  apply sameData_imageAfter
  intro write member
  have inRange := (List.of_mem_zip member).1
  rw [List.mem_range'_1] at inRange
  omega

namespace Formatted

variable {fs : FsState} (formatted : Formatted fs)

include formatted

theorem logStart_eq : fs.boot.logStartSector = 273 + fs.bitmapSectors := by
  rw [formatted.logStartSector, formatted.dataStartSector]

theorem journaledHomes_length : (journaledHomes fs).length = 31 := by
  obtain ⟨bits, bitsEq⟩ := Option.isSome_iff_exists.mp formatted.bitmap
  have bounds := formatted.bitmapSectors_bounds
  have some_ : 0 < fs.bitmapSectors := by omega
  simp [journaledHomes, formatted.inodeSectors, bitsEq, some_, journalMax]

theorem journaledHomes_below : ∀ home ∈ journaledHomes fs, home.1 < fs.base := by
  intro home member
  have base := formatted.base_eq
  rcases List.mem_append.mp member with inTable | inBitmap
  · obtain ⟨index, inRange, homeEq⟩ := List.mem_map.mp inTable
    have small : index < 30 := by
      have inside := List.mem_range.mp inRange
      rw [formatted.inodeSectors] at inside
      exact inside
    rw [← homeEq, formatted.inodeTableSector]
    rw [u32_of_lt (by omega)]
    omega
  · cases bitmap : fs.bitmap with
    | none =>
      rw [bitmap] at inBitmap
      cases inBitmap
    | some bits =>
      simp only [bitmap, formatted.freeBitmapSector] at inBitmap
      split at inBitmap
      · rw [List.mem_singleton.mp inBitmap]
        change 273 < fs.base
        omega
      · cases inBitmap

theorem logWrites_below {homes : List (Nat × Sector)} (short : homes.length ≤ 32) :
    ∀ write ∈ logWrites fs.boot homes, write.1 < fs.base := by
  intro write member
  have base := formatted.base_eq
  have bounds := formatted.bitmapSectors_bounds
  have start := formatted.logStart_eq
  rcases List.mem_cons.mp member with isHeader | inCopies
  · rw [isHeader]
    change fs.boot.logStartSector < fs.base
    omega
  · obtain ⟨index, inside, writeEq⟩ := List.mem_mapIdx.mp inCopies
    rw [← writeEq]
    change u32 (fs.boot.logStartSector + 1 + index) < fs.base
    rw [u32_of_lt (by omega)]
    omega

theorem restored : ({ fs with boot := { fs.boot with logNext := 0 } } : FsState) = fs := by
  have cleared := formatted.logNext
  cases fs with
  | mk boot inodes initialized bitmap bitmapSectors kernel =>
    cases boot
    simp only at cleared
    subst cleared
    rfl

theorem run_fsJournalCommit {homes : List (Nat × Sector)}
    (nonempty : homes.length ≠ 0) (short : homes.length ≤ 32)
    (below : ∀ home ∈ homes, home.1 < fs.base) (disk : Nat → Sector) :
    Leaves (fsJournalCommit homes) fs disk fun outcome fs' disk' =>
      outcome = some () ∧ fs' = fs ∧ SameData fs disk disk' := by
  have base := formatted.base_eq
  have logSize := formatted.logSize
  let announced : FsState := { fs with boot := { fs.boot with logNext := homes.length + 1 } }
  let retired : FsState := { announced with boot := { announced.boot with logNext := 0 } }
  have same : retired = fs := formatted.restored
  let logged := imageAfter disk (logWrites fs.boot homes)
  let pending := Function.update logged 0 announced.boot.encode
  let copied := imageAfter pending homes
  let final := Function.update copied 0 retired.boot.encode
  refine ⟨some (), retired, final, ?_, rfl, same, ?_⟩
  · rw [fsJournalCommit, run_reads_bind, require_of ⟨nonempty, short⟩,
      run_pure_bind, require_of (by omega), run_pure_bind,
      run_bind_of_some (run_dWriteAll fs _ disk)]
    simp only [announceLog, writeBoot]
    exact run_bind_of_some (run_dWriteAll announced homes pending)
  · have loggedSame : SameData fs disk logged :=
      sameData_imageAfter disk (formatted.logWrites_below short)
    have pendingSame : SameData fs logged pending := sameData_update logged _ (by omega)
    have copiedSame : SameData fs pending copied := sameData_imageAfter pending below
    have finalSame : SameData fs copied final := sameData_update copied _ (by omega)
    exact ((loggedSame.trans pendingSame).trans copiedSame).trans finalSame

theorem run_writeBitmapTail (disk : Nat → Sector) :
    Leaves writeBitmapTail fs disk fun outcome fs' disk' =>
      outcome = some () ∧ fs' = fs ∧ SameData fs disk disk' := by
  have base := formatted.base_eq
  have bounds := formatted.bitmapSectors_bounds
  obtain ⟨bits, bitsEq⟩ := Option.isSome_iff_exists.mp formatted.bitmap
  rw [writeBitmapTail]
  apply yields_reads_bind
  simp only [id_eq, bitsEq, formatted.freeBitmapSector]
  rw [u32_of_lt (by omega)]
  refine ⟨some (), fs, _, run_dWriteN disk (by omega), rfl, rfl, ?_⟩
  exact sameData_dWriteN disk _ (by omega)

theorem run_fsPersistMeta (disk : Nat → Sector) :
    Leaves fsPersistMeta fs disk fun outcome fs' disk' =>
      outcome = some () ∧ fs' = fs ∧ SameData fs disk disk' := by
  have base := formatted.base_eq
  rw [fsPersistMeta]
  apply yields_reads_bind
  apply (formatted.run_fsJournalCommit (by rw [formatted.journaledHomes_length]; decide)
    (by rw [formatted.journaledHomes_length]; decide) formatted.journaledHomes_below disk).bind
  · rintro fs' disk' ⟨impossible, _⟩
    cases impossible
  rintro _ fs' committed ⟨_, fsEq, committedSame⟩
  rw [fsEq]
  apply yields_reads_bind
  simp only [id_eq, formatted.inodeSectors, formatted.inodeTableSector]
  rw [u32_of_lt (by omega)]
  apply Yields.bind_of_run (run_dWriteN committed (by omega))
  apply (formatted.run_writeBitmapTail _).bind
  · rintro fs'' disk'' ⟨impossible, _⟩
    cases impossible
  rintro _ fs'' tail ⟨_, tailEq, tailSame⟩
  rw [tailEq]
  have tableSame := sameData_dWriteN committed (fun index => tableSector fs.inodes (30 + index))
    (by omega : 31 + 242 ≤ fs.base)
  have finalSame : SameData fs tail (Function.update tail 0 fs.boot.encode) :=
    sameData_update tail _ (by omega)
  exact ⟨some (), fs, _, rfl, rfl, rfl,
    ((committedSame.trans tableSame).trans tailSame).trans finalSame⟩

end Formatted

theorem Formatted.run_fsLoadBitmap (formatted : Formatted fs) (flat : FlatDisk) :
    fsLoadBitmap.run flatDevice fs flat = (some (), fs, flat) := by
  rw [fsLoadBitmap, run_reads_bind]
  simp only [id_eq, if_pos formatted.bitmap, run_pure]

/-- An inode without the access time. -/
def Inode.unread (inode : Inode) : Inode :=
  { inode with atime := 0 }

/-- What a lookup may change: the access times of links, and the number of
times the kernel was asked. -/
structure Looked (fs fs' : FsState) : Prop where
  boot : fs'.boot = fs.boot
  initialized : fs'.initialized = fs.initialized
  bitmap : fs'.bitmap = fs.bitmap
  bitmapSectors : fs'.bitmapSectors = fs.bitmapSectors
  kernel : fs'.kernel.fixed = fs.kernel.fixed
  inodes : ∀ index, (fs'.inodes index).unread = (fs.inodes index).unread

variable {first second : Inode}

theorem Inode.sameBlocks_of_unread
    (same : first.unread = second.unread) : first.SameBlocks second := by
  have direct := congrArg Inode.direct same
  have indirectLba := congrArg Inode.indirectLba same
  have xattrLba := congrArg Inode.xattrLba same
  exact ⟨direct, indirectLba, xattrLba⟩

namespace Looked

variable {fs fs' fs'' : FsState}

theorem refl (fs : FsState) : Looked fs fs := ⟨rfl, rfl, rfl, rfl, rfl, fun _ => rfl⟩

theorem trans (first : Looked fs fs') (second : Looked fs' fs'') : Looked fs fs'' :=
  ⟨second.boot.trans first.boot, second.initialized.trans first.initialized,
    second.bitmap.trans first.bitmap, second.bitmapSectors.trans first.bitmapSectors,
    second.kernel.trans first.kernel, fun index => (second.inodes index).trans (first.inodes index)⟩

theorem ask (fs : FsState) : Looked fs fs.ask := ⟨rfl, rfl, rfl, rfl, rfl, fun _ => rfl⟩

variable (looked : Looked fs fs')
include looked

theorem flags (index : Nat) : (fs'.inodes index).flags = (fs.inodes index).flags := by
  have same := congrArg Inode.flags (looked.inodes index)
  exact same

theorem dataSectors (disk : Nat → Sector) (index : Nat) :
    (fs'.inodes index).dataSectors disk = (fs.inodes index).dataSectors disk :=
  (Inode.sameBlocks_of_unread (looked.inodes index)).dataSectors disk

theorem sizeBytes (index : Nat) : (fs'.inodes index).sizeBytes = (fs.inodes index).sizeBytes := by
  have same := congrArg Inode.sizeBytes (looked.inodes index)
  exact same

theorem fileBlocks (disk : Nat → Sector)
    (index : Nat) : fileBlocks fs' disk index = fileBlocks fs disk index := by
  unfold KnitOS.Fs.fileBlocks
  rw [looked.dataSectors disk index]

theorem consistent {disk : Nat → Sector}
    {held : List Nat} (consistent : Consistent fs disk held) : Consistent fs' disk held := by
  refine consistent.of_same_blocks ?_ looked.initialized looked.bitmap looked.bitmapSectors
    fun index _ => Inode.sameBlocks_of_unread (looked.inodes index)
  rw [looked.boot]
  rfl

end Looked

/-- An inode without its contents, their size and the times. -/
def Inode.identity (inode : Inode) : Inode :=
  { inode.cleared with sizeBytes := 0, atime := 0, mtime := 0, ctime := 0 }

/-- The contents of one file were changed, successfully or not. -/
structure Edited (index : Nat) (fs : FsState) (disk : Nat → Sector)
    (held : List Nat) (fs' : FsState) (disk' : Nat → Sector) : Prop where
  consistent : Consistent fs' disk' held
  touched : Touched index fs disk fs' disk'
  identity : (fs'.inodes index).identity = (fs.inodes index).identity

namespace Edited

variable {index : Nat} {fs fs' fs'' : FsState}
  {disk disk' disk'' : Nat → Sector} {held : List Nat}

theorem trans (first : Edited index fs disk held fs' disk')
    (second : Edited index fs' disk' held fs'' disk'') : Edited index fs disk held fs'' disk'' :=
  ⟨second.consistent, first.touched.trans second.touched, second.identity.trans first.identity⟩

variable (consistent : Consistent fs disk held)
include consistent

theorem refl (index : Nat) :
    Edited index fs disk held fs disk := ⟨consistent, Touched.refl index fs disk, rfl⟩

theorem of_setInode {inode : Inode} (same : inode.SameBlocks (fs.inodes index))
    (identity : inode.identity = (fs.inodes index).identity) :
    Edited index fs disk held (fs.setInode index inode) disk := by
  refine ⟨consistent.setInode same, ⟨rfl, rfl, rfl, ?_, fun _ _ _ _ _ => rfl⟩, ?_⟩
  · intro other different
    exact fs.setInode_other index inode different
  · rw [FsState.setInode_self]
    exact identity

theorem of_ask (index : Nat) : Edited index fs disk held fs.ask disk :=
  ⟨consistent.ask, ⟨rfl, rfl, rfl, fun _ _ => rfl, fun _ _ _ _ _ => rfl⟩, rfl⟩

theorem of_sameData
    (same : SameData fs disk disk') (index : Nat) : Edited index fs disk held fs disk' := by
  refine ⟨?_, ⟨rfl, rfl, rfl, fun _ _ => rfl, ?_⟩, rfl⟩
  · apply consistent.of_indirect
    intro other inTable present
    exact same _ (consistent.owned.inode_marked inTable _
      (Inode.mem_ownedSectors_indirect disk present)).1
  · intro other _ inTable sector member
    exact same sector (consistent.owned.inode_marked inTable sector member).1

omit consistent

theorem flags (edited : Edited index fs disk held fs' disk') (other : Nat) :
    (fs'.inodes other).flags = (fs.inodes other).flags := by
  by_cases same : other = index
  · have sameFlags := congrArg Inode.flags edited.identity
    rw [same]
    exact sameFlags
  · rw [edited.touched.others other same]

end Edited

theorem Rebuilt.edited {index : Nat} {fs' : FsState}
    {disk' : Nat → Sector} {held : List Nat} (rebuilt : Rebuilt index fs disk held fs' disk') :
    Edited index fs disk held fs' disk' := by
  refine ⟨rebuilt.consistent, rebuilt.touched, ?_⟩
  unfold Inode.identity
  rw [rebuilt.inode]

/-- A function that only looks. -/
def Observes {α : Type} (program : FsProgram α) (fs : FsState) (disk : Nat → Sector) : Prop :=
  Leaves program fs disk fun _ fs' disk' => Looked fs fs' ∧ disk' = disk

variable {α : Type} {program : FsProgram α}

theorem Observes.bind {β : Type} {next : α → FsProgram β} (first : Observes program fs disk)
    (then_ : ∀ value fs', Looked fs fs' → Observes (next value) fs' disk) :
    Observes (program >>= next) fs disk := by
  apply Yields.bind first
  · intro fs' disk' looked
    exact looked
  · rintro value fs' disk' ⟨looked, same⟩
    rw [same]
    apply (then_ value fs' looked).mono
    rintro _ fs'' disk'' ⟨lookedAgain, sameAgain⟩
    exact ⟨looked.trans lookedAgain, sameAgain⟩

theorem Observes.attempt (observes : Observes program fs disk) :
    Observes (attempt program) fs disk := by
  obtain ⟨outcome, fs', disk', ran, looked⟩ := observes
  refine ⟨some outcome, fs', disk', ?_, looked⟩
  rw [run_attempt, ran]

theorem observes_pure (value : α) (fs : FsState)
    (disk : Nat → Sector) : Observes (pure value) fs disk := yields_pure ⟨Looked.refl fs, rfl⟩

theorem observes_require (condition : Prop) [Decidable condition]
    (fs : FsState) (disk : Nat → Sector) : Observes (require condition) fs disk :=
  yields_require (fun _ => ⟨Looked.refl fs, rfl⟩) fun _ => ⟨Looked.refl fs, rfl⟩

theorem observes_reads (field : FsState → α) (fs : FsState)
    (disk : Nat → Sector) : Observes (reads field) fs disk :=
  ⟨some (field fs), fs, disk, rfl, Looked.refl fs, rfl⟩

/-- The contents of some occupied files were changed, successfully or not, and
nothing else but access times. -/
structure Worked (files : Nat → Prop) (fs : FsState) (disk : Nat → Sector)
    (fs' : FsState) (disk' : Nat → Sector) : Prop where
  consistent : Consistent fs' disk' []
  boot : fs'.boot = fs.boot
  initialized : fs'.initialized = fs.initialized
  kernel : fs'.kernel.fixed = fs.kernel.fixed
  identity : ∀ index, (fs'.inodes index).identity = (fs.inodes index).identity
  inodes : ∀ index, ¬ (files index ∧ (fs.inodes index).occupied = true) →
      (fs'.inodes index).unread = (fs.inodes index).unread
  sectors : ∀ index, ¬ (files index ∧ (fs.inodes index).occupied = true) → index < maxInodes →
        ∀ sector ∈ (fs.inodes index).ownedSectors disk, disk' sector = disk sector

theorem Inode.identity_of_unread (same : first.unread = second.unread) :
    first.identity = second.identity := by
  have throughUnread : ∀ inode : Inode, inode.identity = inode.unread.identity := fun _ => rfl
  rw [throughUnread first, same, ← throughUnread second]

theorem Inode.flags_of_identity (same : first.identity = second.identity) :
    first.flags = second.flags := by
  have flags := congrArg Inode.flags same
  exact flags

theorem fsAccessOk_congr {fs' : FsState} {index : Nat}
    (callerUid : fs'.kernel.uid = fs.kernel.uid) (callerGid : fs'.kernel.gid = fs.kernel.gid)
    (flags : (fs'.inodes index).flags = (fs.inodes index).flags)
    (mode : (fs'.inodes index).mode = (fs.inodes index).mode)
    (uid : (fs'.inodes index).uid = (fs.inodes index).uid)
    (gid : (fs'.inodes index).gid = (fs.inodes index).gid) (wantWrite : Bool) :
    fsAccessOk fs' index wantWrite = fsAccessOk fs index wantWrite := by
  simp only [fsAccessOk, permissionBit, Inode.occupied, Inode.hasFlag, flags, callerUid,
    callerGid, mode, uid, gid]

theorem fsAccessOk_of_identity {fs' : FsState} {index : Nat}
    (kernel : fs'.kernel.fixed = fs.kernel.fixed)
    (identity : (fs'.inodes index).identity = (fs.inodes index).identity) (wantWrite : Bool) :
    fsAccessOk fs' index wantWrite = fsAccessOk fs index wantWrite := by
  have callerUid := congrArg Kernel.uid kernel
  have callerGid := congrArg Kernel.gid kernel
  have mode := congrArg Inode.mode identity
  have uid := congrArg Inode.uid identity
  have gid := congrArg Inode.gid identity
  exact fsAccessOk_congr callerUid callerGid (Inode.flags_of_identity identity) mode uid gid
    wantWrite

theorem Looked.fsAccessOk {fs fs' : FsState} (looked : Looked fs fs') (index : Nat)
    (wantWrite : Bool) :
    KnitOS.Fs.fsAccessOk fs' index wantWrite = KnitOS.Fs.fsAccessOk fs index wantWrite :=
  fsAccessOk_of_identity looked.kernel (Inode.identity_of_unread (looked.inodes index)) wantWrite

namespace Worked

variable {files : Nat → Prop} {fs fs' fs'' : FsState}
  {disk disk' disk'' : Nat → Sector}

theorem fsAccessOk (worked : Worked files fs disk fs' disk') (index : Nat) (wantWrite : Bool) :
    KnitOS.Fs.fsAccessOk fs' index wantWrite = KnitOS.Fs.fsAccessOk fs index wantWrite :=
  fsAccessOk_of_identity worked.kernel (worked.identity index) wantWrite

theorem of_looked (looked : Looked fs fs')
    (consistent : Consistent fs disk []) (files : Nat → Prop) : Worked files fs disk fs' disk :=
  ⟨looked.consistent consistent, looked.boot, looked.initialized, looked.kernel,
    fun index => Inode.identity_of_unread (looked.inodes index),
    fun index _ => looked.inodes index, fun _ _ _ _ _ => rfl⟩

theorem of_edited {index : Nat} (edited : Edited index fs disk [] fs' disk')
    (concerned : files index) (occupied : (fs.inodes index).occupied = true) :
    Worked files fs disk fs' disk' := by
  have different : ∀ other, ¬ (files other ∧ (fs.inodes other).occupied = true) →
        other ≠ index := by
    intro other unconcerned same
    exact unconcerned (same ▸ ⟨concerned, occupied⟩)
  refine ⟨edited.consistent, edited.touched.boot, edited.touched.initialized,
    edited.touched.kernel, ?_, ?_, ?_⟩
  · intro other
    by_cases same : other = index
    · rw [same]
      exact edited.identity
    · rw [edited.touched.others other same]
  · intro other unconcerned
    rw [edited.touched.others other (different other unconcerned)]
  · intro other unconcerned
    exact edited.touched.sectors other (different other unconcerned)

theorem of_sameData (consistent : Consistent fs disk [])
    (same : SameData fs disk disk') (files : Nat → Prop) : Worked files fs disk fs disk' := by
  have edited := Edited.of_sameData consistent same maxInodes
  refine ⟨edited.consistent, rfl, rfl, rfl, fun _ => rfl, fun _ _ => rfl, ?_⟩
  intro index _ inTable
  exact edited.touched.sectors index (Nat.ne_of_lt inTable) inTable

variable (worked : Worked files fs disk fs' disk')
include worked

theorem flags (index : Nat) : (fs'.inodes index).flags = (fs.inodes index).flags :=
  Inode.flags_of_identity (worked.identity index)

theorem occupied (index : Nat) : (fs'.inodes index).occupied = (fs.inodes index).occupied :=
  Inode.occupied_congr (worked.flags index)

theorem ownedSectors {index : Nat}
    (unconcerned : ¬ (files index ∧ (fs.inodes index).occupied = true))
    (inTable : index < maxInodes) : (fs'.inodes index).ownedSectors disk' =
      (fs.inodes index).ownedSectors disk := by
  have blocks := Inode.sameBlocks_of_unread (worked.inodes index unconcerned)
  rw [blocks.ownedSectors]
  exact Inode.ownedSectors_congr (worked.sectors index unconcerned inTable)

omit worked

theorem trans (first : Worked files fs disk fs' disk')
    (second : Worked files fs' disk' fs'' disk'') : Worked files fs disk fs'' disk'' := by
  have stillUnconcerned : ∀ index, ¬ (files index ∧ (fs.inodes index).occupied = true) →
        ¬ (files index ∧ (fs'.inodes index).occupied = true) := by
    intro index unconcerned
    rw [first.occupied index]
    exact unconcerned
  refine ⟨second.consistent, second.boot.trans first.boot,
    second.initialized.trans first.initialized, second.kernel.trans first.kernel, ?_, ?_, ?_⟩
  · intro index
    exact (second.identity index).trans (first.identity index)
  · intro index unconcerned
    exact (second.inodes index (stillUnconcerned index unconcerned)).trans
      (first.inodes index unconcerned)
  · intro index unconcerned inTable sector member
    have memberAfter : sector ∈ (fs'.inodes index).ownedSectors disk' := by
      rwa [first.ownedSectors unconcerned inTable]
    rw [second.sectors index (stillUnconcerned index unconcerned) inTable sector memberAfter,
      first.sectors index unconcerned inTable sector member]

end Worked

/-- A function that changes the contents of some files at most. -/
def Works (files : Nat → Prop) {α : Type} (program : FsProgram α)
    (fs : FsState) (disk : Nat → Sector) : Prop :=
  Leaves program fs disk fun _ fs' disk' => Worked files fs disk fs' disk'

theorem Works.bind {files : Nat → Prop} {β : Type} {next : α → FsProgram β}
    (first : Works files program fs disk)
    (then_ : ∀ value fs' disk', Worked files fs disk fs' disk' →
      Works files (next value) fs' disk') : Works files (program >>= next) fs disk := by
  apply Yields.bind first
  · intro fs' disk' worked
    exact worked
  · intro value fs' disk' worked
    apply (then_ value fs' disk' worked).mono
    intro _ fs'' disk'' workedAgain
    exact worked.trans workedAgain

theorem Consistent.works_fsPersistMeta (consistent : Consistent fs disk [])
    (files : Nat → Prop) : Works files fsPersistMeta fs disk := by
  apply (consistent.formatted.run_fsPersistMeta disk).mono
  rintro _ fs' disk' ⟨_, fsEq, same⟩
  rw [fsEq]
  exact Worked.of_sameData consistent same files

theorem Observes.works (observes : Observes program fs disk)
    (consistent : Consistent fs disk []) (files : Nat → Prop) : Works files program fs disk := by
  apply Yields.mono observes
  rintro _ fs' disk' ⟨looked, same⟩
  rw [same]
  exact Worked.of_looked looked consistent files

end KnitOS.Fs
