import KnitOS.Fs.Barred
import KnitOS.Fs.Machine

/-!
# Sector ownership along runs

A data sector is referred to from at most one place, and one that is referred
to is marked in the bitmap.  Runs keep this if `fs_fsck(true)`, which does not
know attribute blocks, is not called while there are any, and if no call finds
a number beyond the inode table.
-/

namespace KnitOS.Fs

open Lib Storage

/-- A place of an inode that can refer to a sector. -/
inductive Place where
  | data (position : Nat)
  | indirect
  | xattr

namespace Place

variable (inode : Inode) (disk : Nat → Sector)

def sector : Place → Option Nat
  | data position => (inode.dataSectors disk)[position]?
  | indirect =>
    if inode.indirectLba = 0 then none else some inode.indirectLba
  | xattr => if inode.xattrLba = 0 then none else some inode.xattrLba

/-- Where the sector of a place stands in the list of owned sectors. -/
def slot : Place → Nat
  | data position => position
  | indirect => (inode.dataSectors disk).length
  | xattr =>
    (inode.dataSectors disk).length + inode.indirectSectors.length

variable {inode disk}

theorem slot_of_sector {place : Place} {lba : Nat} (refers : place.sector inode disk = some lba) :
    (inode.ownedSectors disk)[place.slot inode disk]? = some lba := by
  unfold Inode.ownedSectors
  cases place with
  | data position =>
    have inside := (List.getElem?_eq_some_iff.mp refers).1
    change (_ ++ _)[position]? = _
    rw [List.getElem?_append_left inside]
    exact refers
  | indirect =>
    change (if inode.indirectLba = 0 then none
      else some inode.indirectLba) = some lba at refers
    split at refers
    · cases refers
    · rename_i present
      change (_ ++ _)[(inode.dataSectors disk).length]? = _
      rw [List.getElem?_append_right (Nat.le_refl _), Nat.sub_self]
      unfold Inode.indirectSectors
      rw [if_neg present]
      exact refers
  | xattr =>
    change (if inode.xattrLba = 0 then none
      else some inode.xattrLba) = some lba at refers
    split at refers
    · cases refers
    · rename_i present
      change (_ ++ _)[(inode.dataSectors disk).length + inode.indirectSectors.length]? = _
      rw [List.getElem?_append_right (Nat.le_add_right _ _), Nat.add_sub_cancel_left,
        List.getElem?_append_right (Nat.le_refl _), Nat.sub_self]
      unfold Inode.xattrSectors
      rw [if_neg present]
      exact refers

theorem slot_injective {first second : Place} {lba lba' : Nat}
    (refers : first.sector inode disk = some lba) (refers' : second.sector inode disk = some lba')
    (same : first.slot inode disk = second.slot inode disk) : first = second := by
  have dataBelow : ∀ {position lba : Nat}, (data position).sector inode disk = some lba →
        position < (inode.dataSectors disk).length := by
    intro position lba isSector
    exact (List.getElem?_eq_some_iff.mp isSector).1
  have indirectPresent : ∀ {lba : Nat}, indirect.sector inode disk = some lba →
        inode.indirectSectors.length = 1 := by
    intro lba isSector
    change (if inode.indirectLba = 0 then none
      else some inode.indirectLba) = some lba at isSector
    split at isSector
    · cases isSector
    · rename_i present
      unfold Inode.indirectSectors
      rw [if_neg present]
      rfl
  cases first with
  | data position =>
    have below := dataBelow refers
    cases second with
    | data position' => rw [show position = position' from same]
    | indirect =>
      change position = (inode.dataSectors disk).length at same
      omega
    | xattr =>
      change position = (inode.dataSectors disk).length + inode.indirectSectors.length at same
      omega
  | indirect =>
    cases second with
    | data position' =>
      have below := dataBelow refers'
      change (inode.dataSectors disk).length = position' at same
      omega
    | indirect => rfl
    | xattr =>
      have present := indirectPresent refers
      change (inode.dataSectors disk).length = (inode.dataSectors disk).length +
        inode.indirectSectors.length at same
      omega
  | xattr =>
    cases second with
    | data position' =>
      have below := dataBelow refers'
      change (inode.dataSectors disk).length + inode.indirectSectors.length = position' at same
      omega
    | indirect =>
      have present := indirectPresent refers'
      change (inode.dataSectors disk).length + inode.indirectSectors.length =
        (inode.dataSectors disk).length at same
      omega
    | xattr => rfl

end Place

/-- A place of an occupied inode of the table refers to a sector. -/
def Refers (fs : FsState) (disk : Nat → Sector) (index : Nat)
    (place : Place) (sector : Nat) : Prop :=
  index < maxInodes ∧ (fs.inodes index).occupied = true ∧
    place.sector (fs.inodes index) disk = some sector

/-- Every data sector is owned by at most one place, owned sectors have their
bit set, and `fs_alloc_blocks` returns none of them. -/
structure SectorOwnership (machine : Machine CachedDisk) : Prop where
  unique : ∀ sector first second place place', machine.fs.boot.allocBase ≤ sector →
    Refers machine.fs machine.dev.view first place sector →
    Refers machine.fs machine.dev.view second place' sector → first = second ∧ place = place'
  marked : ∀ sector index place, Refers machine.fs machine.dev.view index place sector →
      fsBitmapTest machine.fs sector = true
  unused : ∀ count start, machine.result cachedDevice (fsAllocBlocks count) = some start →
      ∀ sector, start ≤ sector → sector < start + count → ∀ index place,
          ¬ Refers machine.fs machine.dev.view index place sector

section

variable {fs : FsState} {disk : Nat → Sector} {place : Place} {index sector : Nat}

theorem Refers.mem
    (refers : Refers fs disk index place sector) : sector ∈ (fs.inodes index).ownedSectors disk :=
  List.mem_of_getElem? (Place.slot_of_sector refers.2.2)

theorem refers_xattr (inTable : index < maxInodes)
    (occupied : (fs.inodes index).occupied = true) (present : (fs.inodes index).xattrLba ≠ 0) :
    Refers fs disk index .xattr (fs.inodes index).xattrLba := ⟨inTable, occupied, if_neg present⟩

theorem Owned.refers_unique (owned : Owned fs disk [])
    {first second : Nat} {place' : Place} (refers : Refers fs disk first place sector)
    (refers' : Refers fs disk second place' sector) : first = second ∧ place = place' := by
  by_cases different : first = second
  · subst different
    refine ⟨rfl, Place.slot_injective refers.2.2 refers'.2.2 ?_⟩
    have nodup := owned.inode_nodup refers.1
    obtain ⟨inside, isFirst⟩ := List.getElem?_eq_some_iff.mp (Place.slot_of_sector refers.2.2)
    obtain ⟨inside', isSecond⟩ := List.getElem?_eq_some_iff.mp (Place.slot_of_sector refers'.2.2)
    exact (nodup.getElem_inj_iff).mp (isFirst.trans isSecond.symm)
  · exact absurd refers'.mem (owned.inode_apart refers.1 refers'.1 different sector refers.mem)

theorem Owned.not_refers_of_free (owned : Owned fs disk [])
    (free : fsBitmapTest fs sector = false) :
    ¬ Refers fs disk index place sector := by
  intro refers
  have marked := (owned.inode_marked refers.1 sector refers.mem).2.2
  rw [free] at marked
  cases marked

end

variable {machine : Machine CachedDisk}

theorem Intact.sectorOwnership (sound : machine.dev.Sound)
    (intact : Intact machine.fs machine.dev.view) : SectorOwnership machine := by
  have owned := intact.consistent.owned
  refine ⟨?_, ?_, ?_⟩
  · intro sector first second place place' _ refers refers'
    exact owned.refers_unique refers refers'
  · intro sector index place refers
    exact (owned.inode_marked refers.1 sector refers.mem).2.2
  · intro count start allocated sector above below index place
    have nonempty : count ≠ 0 := by omega
    have leaves : Leaves (fsAllocBlocks count) machine.fs machine.dev.view
        fun outcome _ _ => ∀ start ∈ outcome, ∀ sector ∈ List.range' start count,
            fsBitmapTest machine.fs sector = false := by
      rcases fsAllocBlocks_spec intact.consistent.formatted nonempty
        (.running machine.dev.view) with failed | ⟨found, ran, _, _, free⟩
      · exact ⟨none, _, _, failed, by rintro _ ⟨⟩⟩
      · refine ⟨some found, _, _, ran, ?_⟩
        rintro _ ⟨⟩
        exact free
    have free := (leaves.cached sound).2 start allocated sector
      (List.mem_range'_1.mpr ⟨above, below⟩)
    exact owned.not_refers_of_free free

inductive FsCall where
  | createFile (path : List UInt8) (mode : Nat)
  | createDir (path : List UInt8)
  | write (path data : List UInt8)
  | indexWrite (index offset : Nat) (data : List UInt8)
  | truncate (path : List UInt8) (newSize : Nat)
  | symlink (target linkPath : List UInt8)
  | link (oldPath newPath : List UInt8)
  | rename (oldPath newPath : List UInt8)
  | delete (path : List UInt8)
  | setxattr (path name value : List UInt8)
  | fsck

/-- The function behind a call; its result is not looked at. -/
def FsCall.program : FsCall → FsProgram Unit
  | createFile path mode => do
      let _ ← fsCreateFile path mode
      pure ()
  | createDir path => fsCreateDir path
  | write path data => fsWrite path data
  | indexWrite index offset data => do
      let _ ← fsIndexWrite index offset data
      pure ()
  | truncate path newSize => fsTruncate path newSize
  | symlink target linkPath => fsSymlink target linkPath
  | link oldPath newPath => fsLink oldPath newPath
  | rename oldPath newPath => fsRename oldPath newPath
  | delete path => fsDelete path
  | setxattr path name value => fsSetxattr path name value
  | fsck => do
      let _ ← fsFsck true
      pure ()

structure FsStep where
  uid : Nat
  gid : Nat
  call : FsCall

def FsStep.action (step : FsStep) : Action :=
  ⟨step.uid, step.gid, step.call.program⟩

/-- `fs_lookup_index(path, false)` does not return a number beyond the inode
table. -/
def LooksUpInTable (machine : Machine CachedDisk) (path : List UInt8) : Prop :=
  ∀ index,
    machine.result cachedDevice (fsLookupIndex path false) = some index →
      index < maxInodes

/-- The condition on a call: no check while an inode has attributes, and no
change to an inode beyond the table. -/
def FsStep.KeepsOwners (machine : Machine CachedDisk) (step : FsStep) : Prop :=
  match step.call with
  | .fsck => ∀ index, index < maxInodes →
      (machine.fs.inodes index).xattrLba = 0
  | .delete path | .setxattr path _ _ | .link path _ | .rename path _ =>
    LooksUpInTable (machine.withCaller step.uid step.gid) path
  | _ => True

theorem LooksUpInTable.flat (machine : Machine CachedDisk)
    {path : List UInt8} (sound : machine.dev.Sound) (intact : Intact machine.fs machine.dev.view)
    (inTable : LooksUpInTable machine path) : NamesInTable machine.fs machine.dev.view path := by
  intro index found
  apply inTable
  have sameOutcome := (Leaves.cached sound (intact.consistent.observes_fsLookupIndex path
    false).with_outcome).2.2
  exact sameOutcome.symm.trans found

theorem Intact.withCaller {fs : FsState} {disk : Nat → Sector}
    (intact : Intact fs disk) (uid gid : Nat) : Intact (fs.withCaller uid gid) disk :=
  ⟨intact.consistent.of_same_blocks rfl rfl rfl rfl
    fun _ _ => ⟨rfl, rfl, rfl⟩, intact.unused, intact.zeroth, intact.root⟩

theorem KeepsIntact.discard {α : Type} {program : FsProgram α}
    {fs : FsState} {disk : Nat → Sector} (keeps : KeepsIntact program fs disk) :
    KeepsIntact (do let _ ← program; pure ()) fs disk :=
  keeps.bind fun _ _ _ after => after.keeps_pure ()

theorem FsStep.keeps_intact {step : FsStep}
    (sound : machine.dev.Sound) (intact : Intact machine.fs machine.dev.view)
    (allowed : step.KeepsOwners machine) : KeepsIntact step.call.program
      (machine.fs.withCaller step.uid step.gid) machine.dev.view := by
  have called := intact.withCaller step.uid step.gid
  obtain ⟨uid, gid, call⟩ := step
  cases call with
  | createFile path mode =>
    exact KeepsIntact.discard ((called.standing.leaves_fsCreateFile path mode).mono
      fun _ _ _ holds => holds.1.standing.intact)
  | createDir path => exact called.keeps_fsCreateDir path
  | write path data => exact (called.standing.keepsOff_fsWrite path data).keepsIntact
  | indexWrite index offset data =>
    exact (called.keeps_works (called.consistent.works_fsIndexWrite index offset data)).discard
  | truncate path newSize => exact (called.standing.keepsOff_fsTruncate path newSize).keepsIntact
  | symlink target linkPath =>
    exact (called.standing.keepsOff_fsSymlink target linkPath).keepsIntact
  | link oldPath newPath => exact (called.standing.keepsOff_fsLink oldPath newPath).keepsIntact
  | rename oldPath newPath => exact (called.standing.keepsOff_fsRename oldPath newPath).keepsIntact
  | delete path =>
    exact (called.standing.leaves_fsDelete (LooksUpInTable.flat (machine.withCaller uid gid) sound
      called allowed)).mono fun _ _ _ holds => holds.1
  | setxattr path name value =>
    exact (called.standing.keepsOff_fsSetxattr (LooksUpInTable.flat (machine.withCaller uid gid)
      sound called allowed) name value fun _ _ => False.elim).keepsIntact
  | fsck => exact KeepsIntact.discard (called.keeps_fsFsck allowed)

theorem Intact.along_run {ι : Type} {action : ι → Action} {Allowed : Machine CachedDisk → ι → Prop}
    (keeps : ∀ (state : Machine CachedDisk) (input : ι), state.dev.Sound →
      Intact state.fs state.dev.view → Allowed state input → KeepsIntact (action input).program
          (state.fs.withCaller (action input).uid (action input).gid) state.dev.view)
    (fresh : FreshlyFormatted machine)
    {inputs : List ι} (allowed : AlongRun (fun state input => state.act cachedDevice
      (action input)) Allowed machine inputs) :
    (machine.after cachedDevice (inputs.map action)).dev.Sound ∧
      Intact (machine.after cachedDevice (inputs.map action)).fs
        (machine.after cachedDevice (inputs.map action)).dev.view := by
  have step : ∀ (state : Machine CachedDisk) (input : ι),
      (state.dev.Sound ∧ Intact state.fs state.dev.view) → Allowed state input →
        (state.act cachedDevice (action input)).dev.Sound ∧
          Intact (state.act cachedDevice (action input)).fs
            (state.act cachedDevice (action input)).dev.view := by
    rintro state input ⟨sound, intact⟩ isAllowed
    exact Leaves.cached sound (keeps state input sound intact isAllowed)
  unfold Machine.after
  rw [runFrom_map]
  exact allowed.invariant step fresh.intact

theorem Intact.after (fresh : FreshlyFormatted machine) {steps : List FsStep}
    (allowed : AlongRun (fun state step => state.act cachedDevice step.action)
      (fun state step => step.KeepsOwners state) machine steps) :
    (machine.after cachedDevice (steps.map FsStep.action)).dev.Sound ∧
      Intact (machine.after cachedDevice (steps.map FsStep.action)).fs
        (machine.after cachedDevice (steps.map FsStep.action)).dev.view := Intact.along_run
    (fun _ step sound intact isAllowed =>
      step.keeps_intact sound intact isAllowed) fresh allowed

/-- In every state that calls reach from a new file system, sectors have one
owner and owned sectors are marked, if no check is made while an inode has
attributes and no call finds an inode beyond the table. -/
theorem sectorOwnership_after {machine : Machine CachedDisk}
    (fresh : FreshlyFormatted machine) {steps : List FsStep}
    (allowed : AlongRun (fun state step => state.act cachedDevice step.action)
      (fun state step => step.KeepsOwners state) machine steps) : SectorOwnership
      (machine.after cachedDevice (steps.map FsStep.action)) := by
  obtain ⟨sound, intact⟩ := Intact.after fresh allowed
  exact intact.sectorOwnership sound

theorem sectorOwnership_after_write :
    FreshlyFormatted ((blankMachine scarceHeap).exec cachedDevice fsInit) ∧ SectorOwnership
        (((blankMachine scarceHeap).exec cachedDevice fsInit).after cachedDevice
          ([⟨0, 0, .createFile [47, 97] 0⟩,
            ⟨7, 7, .write [47, 97] [1, 2, 3]⟩].map FsStep.action)) := by
  have fresh := (blankMachine_unformatted scarceHeap).freshlyFormatted scarceHeap_grants
  exact ⟨fresh, sectorOwnership_after fresh ⟨trivial, trivial, trivial⟩⟩

/-- The root stays a directory, and inodes that are free have no sectors. -/
theorem root_after (fresh : FreshlyFormatted machine) {steps : List FsStep}
    (allowed : AlongRun (fun state step => state.act cachedDevice step.action)
      (fun state step => step.KeepsOwners state) machine steps) :
    let reached := machine.after cachedDevice (steps.map FsStep.action)
    (reached.fs.inodes rootIno).isDirectory = true ∧
      ∀ index < maxInodes, (reached.fs.inodes index).occupied = false →
        (reached.fs.inodes index).dataSectors reached.dev.view = [] := by
  obtain ⟨_, intact⟩ := Intact.after fresh allowed
  refine ⟨intact.root, fun index inTable free => ?_⟩
  exact (intact.unused index inTable free).2.1

/-- A directory and a file in it; the file is written and truncated. -/
theorem root_after_write :
    ((((blankMachine scarceHeap).exec cachedDevice fsInit).after cachedDevice
      ([⟨0, 0, .createDir [47, 97]⟩, ⟨0, 0, .createFile [47, 97, 47, 98] 0⟩,
        ⟨0, 0, .write [47, 97, 47, 98] [1, 2, 3]⟩,
        ⟨0, 0, .truncate [47, 97, 47, 98] 1⟩].map FsStep.action)).fs.inodes
          rootIno).isDirectory = true :=
  (@root_after _ ((blankMachine_unformatted scarceHeap).freshlyFormatted scarceHeap_grants)
    [⟨0, 0, .createDir [47, 97]⟩, ⟨0, 0, .createFile [47, 97, 47, 98] 0⟩,
      ⟨0, 0, .write [47, 97, 47, 98] [1, 2, 3]⟩, ⟨0, 0, .truncate [47, 97, 47, 98] 1⟩]
    ⟨trivial, trivial, trivial, trivial, trivial⟩).1

/-- A file gets an attribute, and then the file system is checked. -/
def xattrThenFsck : List FsStep :=
  [⟨0, 0, .createFile [47, 97] 0⟩,
    ⟨0, 0, .setxattr [47, 97] [107] [118]⟩,
    ⟨0, 0, .fsck⟩]

/-- An occupied inode has an attribute block whose bit is clear. -/
def lostXattr (machine : Machine (Option (Nat → Sector))) (index : Nat) : Bool :=
  machine.dev.isSome && (machine.fs.inodes index).occupied &&
    (machine.fs.inodes index).xattrLba != 0 &&
    !fsBitmapTest machine.fs (machine.fs.inodes index).xattrLba

set_option maxRecDepth 100000 in
theorem lostXattr_xattrThenFsck : lostXattr
    ((blankMachine scarceHeap).newData (xattrThenFsck.map FsStep.action)) 2 = true := by
  decide +kernel

/-- `fs_fsck(true)` clears the bit of an attribute block in use. -/
theorem fsFsck_frees_xattr : FreshlyFormatted ((blankMachine scarceHeap).exec cachedDevice fsInit) ∧
      ¬ SectorOwnership (((blankMachine scarceHeap).exec cachedDevice fsInit).after
          cachedDevice (xattrThenFsck.map FsStep.action)) := by
  have unformatted := blankMachine_unformatted scarceHeap
  refine ⟨unformatted.freshlyFormatted scarceHeap_grants, ?_⟩
  intro ownership
  have lost := lostXattr_xattrThenFsck
  simp only [lostXattr, Bool.and_eq_true, bne_iff_ne, Bool.not_eq_true'] at lost
  obtain ⟨⟨⟨valid, occupied⟩, present⟩, clear⟩ := lost
  obtain ⟨sameState, _⟩ := after_fsInit_eq unformatted scarceHeap_grants valid
  rw [← sameState] at occupied present clear
  have marked := ownership.marked _ 2 .xattr (refers_xattr (by decide) occupied present)
  rw [clear] at marked
  cases marked

end KnitOS.Fs
