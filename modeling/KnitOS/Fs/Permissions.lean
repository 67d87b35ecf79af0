import KnitOS.Fs.SectorOwnership

/-!
# Permissions

Along a run of calls, what a call changes its caller may write to.  The
exception is `fs_setxattr`, which does not ask for access.
-/

namespace KnitOS.Fs

open Lib Lib.Program Storage

/-- The calls that change inodes, and those that only change who may. -/
inductive PermCall where
  | base (fsCall : FsCall)
  | chmod (path : List UInt8) (mode : Nat)
  | chown (path : List UInt8) (uid gid : Nat)
  | chgrp (path : List UInt8) (gid : Nat)

namespace PermCall

def program : PermCall → FsProgram Unit
  | base fsCall => fsCall.program
  | chmod path mode => fsChmod path mode
  | chown path uid gid => fsChown path uid gid
  | chgrp path gid => fsChgrp path gid

/-- The calls made on behalf of a task that name a file or a link. -/
def NamesFile : PermCall → Prop
  | base (.createDir _) | base .fsck => False
  | _ => True

/-- The calls the owner of a file may always make. -/
def IsOwners : PermCall → Prop
  | chmod _ _ | chgrp _ _ => True
  | _ => False

end PermCall

structure PermStep where
  uid : Nat
  gid : Nat
  call : PermCall

namespace PermStep

def action (step : PermStep) : Action :=
  ⟨step.uid, step.gid, step.call.program⟩

/-- The machine when the call starts. -/
def before (step : PermStep) (machine : Machine CachedDisk) : Machine CachedDisk :=
  machine.withCaller step.uid step.gid

/-- The condition under which sectors keep their owners, for all calls. -/
def KeepsOwners (machine : Machine CachedDisk) (step : PermStep) : Prop :=
  match step.call with
  | .base fsCall => FsStep.KeepsOwners machine ⟨step.uid, step.gid, fsCall⟩
  | .chmod path _ | .chown path _ _ | .chgrp path _ =>
    LooksUpInTable (step.before machine) path

/-- What the call changes, the caller may write to; or the caller owns it and
the call is for owners. -/
def Respects (machine : Machine CachedDisk) (step : PermStep) : Prop :=
  ∀ index, index < maxInodes →
    (machine.fs.inodes index).occupied = true →
    ((machine.act cachedDevice step.action).fs.inodes index).occupied = true →
      fileView (machine.act cachedDevice step.action).fs
          (machine.act cachedDevice step.action).dev.view index =
        fileView machine.fs machine.dev.view index ∨
      fsAccessOk (step.before machine).fs index true = true ∨
      step.call.IsOwners ∧ (machine.fs.inodes index).uid = step.uid

/-- An attribute is only set where the caller may write, unless the call has
no effect on the attribute block. -/
def AttributeGranted (machine : Machine CachedDisk) (step : PermStep) : Prop :=
  match step.call with
  | .base (.setxattr path name value) =>
    ∀ index,
      (step.before machine).result cachedDevice (fsLookupIndex path false) =
        some index →
      (machine.fs.inodes index).occupied = true →
      XattrChanges machine.fs machine.dev.view index name value →
        fsAccessOk (step.before machine).fs index true = true
  | _ => True

def Barred (machine : Machine CachedDisk) (step : PermStep) (index : Nat) : Prop :=
  index < maxInodes ∧ (machine.fs.inodes index).occupied = true ∧
    fsAccessOk (step.before machine).fs index true = false ∧
    ¬ (step.call.IsOwners ∧ (machine.fs.inodes index).uid = step.uid)

end PermStep

section

variable {machine : Machine CachedDisk}
  (sound : machine.dev.Sound) (intact : Intact machine.fs machine.dev.view)

include sound intact

theorem Intact.lookup_cached (path : List UInt8) (follow : Bool) :
    machine.result cachedDevice (fsLookupIndex path follow) =
      ((fsLookupIndex path follow).run flatDevice machine.fs (.running machine.dev.view)).1 := by
  have sameOutcome := (Leaves.cached sound (intact.consistent.observes_fsLookupIndex path
    follow).with_outcome).2.2
  exact sameOutcome.symm

omit sound in
theorem PermStep.standing (step : PermStep) :
    Standing (step.Barred machine) (step.before machine).fs machine.dev.view :=
  ⟨intact.withCaller step.uid step.gid, fun _ isBarred => isBarred.2.1,
    fun _ isBarred => isBarred.1, fun _ isBarred => isBarred.2.2.1⟩

omit sound in
theorem PermStep.keepsOff_owners (step : PermStep)
    (isOwners : step.call.IsOwners) {path : List UInt8}
    {update : Inode → Inode} (user : step.uid ≠ 0)
    (blocks : ∀ inode, (update inode).SameBlocks inode)
    (flags : ∀ inode, (update inode).flags = inode.flags) :
    KeepsOff (step.Barred machine) (changeInode path ownsInode update)
      (step.before machine).fs machine.dev.view := by
  refine (step.standing intact).keepsOff_changeInode blocks flags ?_
  intro fs' disk' kept index isBarred
  have uid : fs'.kernel.uid = step.uid := congrArg Prod.fst kept.caller
  have owner : (fs'.inodes index).uid = (machine.fs.inodes index).uid :=
    (Inode.fields_of_lasting (kept.spared index isBarred).inode).2.1
  have notOwner : (machine.fs.inodes index).uid ≠ step.uid :=
    fun same => isBarred.2.2.2 ⟨isOwners, same⟩
  unfold ownsInode
  rw [uid, owner, beq_false_of_ne user, beq_false_of_ne notOwner]
  rfl

variable {step : PermStep}

/-- Every call leaves barred inodes alone or frees them, if attributes are
only set where the caller may write. -/
theorem PermStep.leaves_keptOrFreed (user : step.uid ≠ 0)
    (namesFile : step.call.NamesFile) (inTable : step.KeepsOwners machine)
    (granted : step.AttributeGranted machine) :
    Leaves step.call.program (step.before machine).fs machine.dev.view
      fun _ fs' disk' => KeptOrFreed (step.Barred machine)
        (step.before machine).fs machine.dev.view fs' disk' := by
  have standing := step.standing intact
  have called := intact.withCaller step.uid step.gid
  have ofKeeps : ∀ {program : FsProgram Unit},
      KeepsOff (step.Barred machine) program (step.before machine).fs machine.dev.view →
      Leaves program (step.before machine).fs machine.dev.view
        fun _ fs' disk' => KeptOrFreed (step.Barred machine)
          (step.before machine).fs machine.dev.view fs' disk' :=
    fun keeps => keeps.mono fun _ _ _ kept => kept.keptOrFreed.2
  obtain ⟨uid, gid, call⟩ := step
  cases call with
  | base fsCall =>
    cases fsCall with
    | createFile path mode =>
      apply Yields.bind (standing.leaves_fsCreateFile path mode)
      · rintro fs' disk' ⟨kept, _⟩
        exact kept.keptOrFreed.2
      · rintro index fs' disk' ⟨kept, _⟩
        exact yields_pure kept.keptOrFreed.2
    | createDir path => exact namesFile.elim
    | write path data => exact ofKeeps (standing.keepsOff_fsWrite path data)
    | indexWrite index offset data =>
      refine ofKeeps ((standing.keepsOff_fsIndexWrite index offset data).bind ?_)
      intro _ fs' disk' after
      exact after.keepsOff_pure ()
    | truncate path newSize =>
      exact ofKeeps (standing.keepsOff_fsTruncate path newSize)
    | symlink target linkPath =>
      exact ofKeeps (standing.keepsOff_fsSymlink target linkPath)
    | link oldPath newPath =>
      exact ofKeeps (standing.keepsOff_fsLink oldPath newPath)
    | rename oldPath newPath =>
      exact ofKeeps (standing.keepsOff_fsRename oldPath newPath)
    | delete path =>
      exact (standing.leaves_fsDelete (LooksUpInTable.flat (machine.withCaller uid gid) sound
        called inTable)).mono fun _ _ _ holds => holds.2
    | setxattr path name value =>
      refine ofKeeps (standing.keepsOff_fsSetxattr
        (LooksUpInTable.flat (machine.withCaller uid gid) sound called inTable) name value ?_)
      intro index found isBarred changes
      have lookup := @Intact.lookup_cached (machine.withCaller uid gid) sound called path false
      have access := granted index (lookup.trans found) isBarred.2.1 changes
      rw [isBarred.2.2.1] at access
      cases access
    | fsck => exact namesFile.elim
  | chmod path mode =>
    apply ofKeeps
    unfold PermCall.program fsChmod
    exact PermStep.keepsOff_owners intact _ (by trivial) user
      (fun _ => ⟨rfl, rfl, rfl⟩) fun _ => rfl
  | chown path newUid newGid =>
    apply ofKeeps
    unfold PermCall.program fsChown
    refine standing.keepsOff_changeInode (fun _ => ⟨rfl, rfl, rfl⟩) (fun _ => rfl) ?_
    intro fs' disk' kept index _
    have sameUid : fs'.kernel.uid = uid := congrArg Prod.fst kept.caller
    rw [sameUid]
    exact beq_false_of_ne user
  | chgrp path newGid =>
    apply ofKeeps
    unfold PermCall.program fsChgrp
    exact PermStep.keepsOff_owners intact _ (by trivial) user
      (fun _ => ⟨rfl, rfl, rfl⟩) fun _ => rfl

theorem PermStep.respects_of_granted (user : step.uid ≠ 0)
    (namesFile : step.call.NamesFile) (inTable : step.KeepsOwners machine)
    (granted : step.AttributeGranted machine) : step.Respects machine := by
  obtain ⟨_, kept⟩ := Leaves.cached sound
    (step.leaves_keptOrFreed sound intact user namesFile inTable granted)
  intro index below occupied occupiedAfter
  by_cases access : fsAccessOk (step.before machine).fs index true = true
  · exact Or.inr (Or.inl access)
  by_cases owner : step.call.IsOwners ∧ (machine.fs.inodes index).uid = step.uid
  · exact Or.inr (Or.inr owner)
  have isBarred : step.Barred machine index := ⟨below, occupied, eq_false_of_ne_true access, owner⟩
  rcases kept index isBarred with spared | freed
  · exact Or.inl spared.fileView_eq
  · have contradiction := freed.symm.trans occupiedAfter
    cases contradiction

theorem PermStep.granted_of_respects
    (inTable : step.KeepsOwners machine) (respects : step.Respects machine) :
    step.AttributeGranted machine := by
  have called := intact.withCaller step.uid step.gid
  obtain ⟨uid, gid, call⟩ := step
  cases call with
  | base fsCall =>
    cases fsCall with
    | setxattr path name value =>
      intro index found occupied changes
      have lookup := @Intact.lookup_cached (machine.withCaller uid gid) sound called path false
      have below : index < maxInodes := inTable index found
      obtain ⟨_, flags, differs⟩ := Leaves.cached sound
        (called.leaves_fsSetxattr_changes (lookup.symm.trans found) below changes)
      have occupiedAfter := (Inode.occupied_congr flags).trans occupied
      rcases respects index below occupied occupiedAfter with
        same | access | ⟨isOwners, _⟩
      · exact absurd (congrArg FileView.xattr same) differs
      · exact access
      · exact isOwners.elim
    | _ => trivial
  | _ => trivial

theorem PermStep.keeps_intact (allowed : step.KeepsOwners machine) :
    KeepsIntact step.call.program (step.before machine).fs machine.dev.view := by
  have called := intact.withCaller step.uid step.gid
  have ofChange : ∀ {path : List UInt8} {allows : FsState → Inode → Bool}
      {update : Inode → Inode}, (∀ inode, (update inode).SameBlocks inode) →
      (∀ inode, (update inode).flags = inode.flags) → KeepsIntact (changeInode path allows update)
          (machine.fs.withCaller step.uid step.gid) machine.dev.view := by
    intro path allows update blocks flags
    exact (called.standing.keepsOff_changeInode blocks flags fun _ _ _ _ => False.elim).keepsIntact
  obtain ⟨uid, gid, call⟩ := step
  cases call with
  | base fsCall => exact FsStep.keeps_intact sound intact allowed
  | chmod path mode =>
    unfold PermCall.program fsChmod
    exact ofChange (fun _ => ⟨rfl, rfl, rfl⟩) fun _ => rfl
  | chown path newUid newGid =>
    unfold PermCall.program fsChown
    exact ofChange (fun _ => ⟨rfl, rfl, rfl⟩) fun _ => rfl
  | chgrp path newGid =>
    unfold PermCall.program fsChgrp
    exact ofChange (fun _ => ⟨rfl, rfl, rfl⟩) fun _ => rfl

end

theorem Machine.act_after (machine : Machine CachedDisk) (steps : List PermStep) (step : PermStep) :
    (machine.after cachedDevice (steps.map PermStep.action)).act cachedDevice step.action =
      machine.after cachedDevice ((steps ++ [step]).map PermStep.action) := by
  unfold Machine.after
  rw [List.map_append, runFrom_append]
  rfl

/-- In every state that calls reach from a new file system, a call of a user
other than root respects the permissions exactly if it does not set an
attribute where the user may not write. -/
theorem respects_iff_attributeGranted {machine : Machine CachedDisk}
    (fresh : FreshlyFormatted machine) {steps : List PermStep}
    (allowed : AlongRun (fun state step => state.act cachedDevice step.action)
      (fun state step => step.KeepsOwners state) machine steps)
    (step : PermStep) (user : step.uid ≠ 0) (namesFile : step.call.NamesFile)
    (inTable : step.KeepsOwners (machine.after cachedDevice (steps.map PermStep.action))) :
    step.Respects (machine.after cachedDevice (steps.map PermStep.action)) ↔ step.AttributeGranted
        (machine.after cachedDevice (steps.map PermStep.action)) := by
  obtain ⟨sound, intact⟩ := Intact.along_run (fun _ earlier sound intact isAllowed =>
      earlier.keeps_intact sound intact isAllowed) fresh allowed
  constructor
  · intro respects
    exact step.granted_of_respects sound intact inTable respects
  · intro granted
    exact step.respects_of_granted sound intact user namesFile inTable granted

def rootFile : List PermStep :=
  [⟨0, 0, .base (.createFile [47, 97] 0)⟩]

/-- Another user writes to it. -/
def foreignWrite : PermStep :=
  ⟨7, 7, .base (.write [47, 97] [1, 2, 3])⟩

theorem foreignWrite_respects :
    FreshlyFormatted ((blankMachine scarceHeap).exec cachedDevice fsInit) ∧ foreignWrite.Respects
        (((blankMachine scarceHeap).exec cachedDevice fsInit).after
          cachedDevice (rootFile.map PermStep.action)) := by
  have fresh := (blankMachine_unformatted scarceHeap).freshlyFormatted scarceHeap_grants
  have allowed : AlongRun (fun state step => state.act cachedDevice (PermStep.action step))
      (fun state step => PermStep.KeepsOwners state step)
      ((blankMachine scarceHeap).exec cachedDevice fsInit) rootFile := ⟨trivial, trivial⟩
  exact ⟨fresh, (respects_iff_attributeGranted fresh allowed foreignWrite
    (by decide) trivial trivial).mpr trivial⟩

/-- Another user sets an attribute of the file of root. -/
def foreignSetxattr : PermStep :=
  ⟨7, 7, .base (.setxattr [47, 97] [107] [118])⟩

/-- Inode `index` has no attribute block, and the user may not write to it. -/
def protectedFile (machine : Machine (Option (Nat → Sector))) (index : Nat) : Bool :=
  machine.dev.isSome && (machine.fs.inodes index).occupied &&
    (machine.fs.inodes index).xattrLba == 0 &&
    !fsAccessOk (machine.fs.withCaller 7 7) index true

def hasXattr (machine : Machine (Option (Nat → Sector))) (index : Nat) : Bool :=
  machine.dev.isSome && (machine.fs.inodes index).occupied &&
    (machine.fs.inodes index).xattrLba != 0

set_option maxRecDepth 100000 in
theorem protectedFile_rootFile : protectedFile
    ((blankMachine scarceHeap).newData (rootFile.map PermStep.action)) 2 = true := by
  decide +kernel

set_option maxRecDepth 100000 in
theorem hasXattr_foreignSetxattr : hasXattr ((blankMachine scarceHeap).newData
    ((rootFile ++ [foreignSetxattr]).map PermStep.action)) 2 = true := by
  decide +kernel

/-- `fs_setxattr` changes the attribute of a file the caller may not write
to. -/
theorem fsSetxattr_ignores_permissions :
    FreshlyFormatted ((blankMachine scarceHeap).exec cachedDevice fsInit) ∧
      foreignSetxattr.uid ≠ 0 ∧ foreignSetxattr.call.NamesFile ∧ ¬ foreignSetxattr.Respects
        (((blankMachine scarceHeap).exec cachedDevice fsInit).after
          cachedDevice (rootFile.map PermStep.action)) := by
  have unformatted := blankMachine_unformatted scarceHeap
  refine ⟨unformatted.freshlyFormatted scarceHeap_grants, by decide, trivial, ?_⟩
  intro respects
  have protectedBefore := protectedFile_rootFile
  simp only [protectedFile, Bool.and_eq_true, beq_iff_eq, Bool.not_eq_true'] at protectedBefore
  obtain ⟨⟨⟨valid, occupied⟩, absent⟩, noAccess⟩ := protectedBefore
  obtain ⟨sameState, _⟩ := after_fsInit_eq unformatted scarceHeap_grants valid
  rw [← sameState] at occupied absent noAccess
  have attributeAfter := hasXattr_foreignSetxattr
  simp only [hasXattr, Bool.and_eq_true, bne_iff_ne] at attributeAfter
  obtain ⟨⟨validAfter, occupiedAfter⟩, present⟩ := attributeAfter
  obtain ⟨sameStateAfter, _⟩ := after_fsInit_eq unformatted scarceHeap_grants validAfter
  rw [← sameStateAfter, ← Machine.act_after] at occupiedAfter present
  rcases respects 2 (by decide) occupied occupiedAfter with
    same | access | ⟨isOwners, _⟩
  · have sameXattr := congrArg FileView.xattr same
    unfold fileView at sameXattr
    rw [if_pos absent, if_neg present] at sameXattr
    cases sameXattr
  · exact absurd access (ne_true_of_eq_false noAccess)
  · exact isOwners

end KnitOS.Fs
