import KnitOS.Tasks.PipeCounts

/-!
# Duplicating a descriptor

`SYS_DUP2` tries `task_fd_dup2`, which knows pipes and terminals, and then
`vfs_dup2`, which knows files.  What happens to the objects behind the entries
is written down as the references that are taken and given back.
-/

namespace KnitOS.Tasks

open Lib Function

/-- A reference is taken for an entry, or the object behind it is released:
`socket_close`, `fs_ofile_release`, `pipe_close` or `pty_unref`. -/
inductive FdOp where
  | ref (entry : TaskFd)
  | release (entry : TaskFd)
deriving DecidableEq

/-- There is an object behind the entry. -/
def TaskFd.Held (entry : TaskFd) : Prop :=
  match entry.type with
  | .none => False
  | .sock => 0 ≤ entry.handle
  | .file => 0 ≤ entry.handle
  | _ => True

instance decidableHeld (entry : TaskFd) : Decidable entry.Held :=
  match entry with
  | ⟨.none, _⟩ => isFalse id
  | ⟨.sock, handle⟩ => inferInstanceAs (Decidable (0 ≤ handle))
  | ⟨.file, handle⟩ => inferInstanceAs (Decidable (0 ≤ handle))
  | ⟨.pipeR, _⟩ => isTrue trivial
  | ⟨.pipeW, _⟩ => isTrue trivial
  | ⟨.ptyM, _⟩ => isTrue trivial
  | ⟨.ptyS, _⟩ => isTrue trivial

/-- The ends of pipes and terminals, whose references are counted. -/
def FdType.Counted (type : FdType) : Prop :=
  type = .pipeR ∨ type = .pipeW ∨ type = .ptyM ∨ type = .ptyS

instance decidableCounted (type : FdType) : Decidable type.Counted :=
  inferInstanceAs (Decidable (_ ∨ _))

section

variable (slot : Fin taskMax)

/-- What `task_fd_close` releases. -/
def closeOps (fd : Int) (system : System) : List FdOp :=
  match taskFdGet slot fd system with
  | none => []
  | some entry => if entry.Held then [.release entry] else []

/-- The references of `task_fd_dup2`; a socket in the way is dropped. -/
def taskFdDup2Ops (oldfd newfd : Int) (system : System) : List FdOp :=
  match indexOf taskFdMax oldfd, indexOf taskFdMax newfd with
  | some old, some new =>
    if oldfd = newfd then
      []
    else
      let source := (system.tasks slot).fds old
      if source.type.Counted then
        let referred := refEntry source system
        .ref source ::
          if ((referred.tasks slot).fds new).type = .sock then
            []
          else
            closeOps slot newfd referred
      else
        []
  | _, _ => []

/-- The references of `vfs_dup2`; `vfs_dup` takes none. -/
def vfsDup2Ops (oldfd newfd : Int) (system : System) : List FdOp :=
  if oldfd = newfd then
    []
  else
    match taskFdGet slot oldfd system with
    | none => []
    | some entry =>
      if entry.type = .file then closeOps slot newfd system else []

/-- The references of `SYS_DUP2`. -/
def sysDup2Ops (oldfd newfd : Int) (system : System) : List FdOp :=
  let duplicated := taskFdDup2 slot oldfd newfd system
  if 0 ≤ duplicated.1 then
    taskFdDup2Ops slot oldfd newfd system
  else
    taskFdDup2Ops slot oldfd newfd system ++
      vfsDup2Ops slot oldfd newfd duplicated.2

end

/-- What a duplicate should do: the new descriptor is returned and has the
entry of the old one, a counted reference is taken for it, the object behind
the new descriptor is released once, and no other entry changes. -/
structure Dup2Contract (slot : Fin taskMax) (old new : Fin taskFdMax) (system : System) : Prop where
  returns : (sysDup2 slot old.val new.val system).1 = new.val
  entry : entries (sysDup2 slot old.val new.val system).2 (slot, new) = entries system (slot, old)
  others : ∀ place, place ≠ (slot, new) → entries (sysDup2 slot old.val new.val system).2 place =
      entries system place
  references : sysDup2Ops slot old.val new.val system = if old = new then
      [] else
      (if (entries system (slot, old)).type.Counted then
        [.ref (entries system (slot, old))] else []) ++ if (entries system (slot, new)).Held then
        [.release (entries system (slot, new))] else []

section

theorem indexOf_val {size : Nat} (index : Fin size) : indexOf size index.val = some index := by
  have inside : 0 ≤ (index.val : Int) ∧ (index.val : Int) < size := by
    omega
  unfold indexOf
  rw [dif_pos inside]
  rfl

theorem indexOf_eq_some_iff {size : Nat} {handle : Int} {index : Fin size} :
    indexOf size handle = some index ↔ handle = index.val := by
  constructor
  · intro found
    unfold indexOf at found
    split at found
    · rename_i inside
      have same := congrArg Fin.val (Option.some.inj found)
      dsimp only at same
      omega
    · cases found
  · intro isHandle
    rw [isHandle]
    exact indexOf_val index

theorem entries_refEntry (entry : TaskFd) (system : System) :
    entries (refEntry entry system) = entries system := by
  unfold entries
  rw [(refEntry_tasks entry system).1]

theorem entries_releaseEntry (entry : TaskFd) (system : System) :
    entries (releaseEntry entry system) = entries system := by
  unfold entries
  rw [(releaseEntry_tasks entry system).1]

variable (slot : Fin taskMax) (fd : Fin taskFdMax)
include fd

theorem taskFdGet_val (system : System) : taskFdGet slot fd.val system =
    if (entries system (slot, fd)).type = .none then
      none
    else
      some (entries system (slot, fd)) := by
  unfold taskFdGet
  rw [indexOf_val]
  by_cases isNone : (entries system (slot, fd)).type = .none
  · rw [if_pos isNone]
    unfold entries at isNone
    simp [isNone]
  · rw [if_neg isNone]
    unfold entries at isNone ⊢
    simp [isNone]

theorem entries_taskFdClose (system : System) : entries (taskFdClose slot fd.val system).2 =
    if (entries system (slot, fd)).type = .none then
      entries system
    else
      update (entries system) (slot, fd) TaskFd.cleared := by
  unfold taskFdClose
  rw [indexOf_val]
  dsimp only
  by_cases isNone : (entries system (slot, fd)).type = .none
  · rw [if_pos isNone]
    unfold entries at isNone
    rw [if_pos isNone]
  · rw [if_neg isNone]
    unfold entries at isNone
    rw [if_neg isNone, entries_setFd, entries_releaseEntry]

theorem entries_taskFdClose_self (system : System) :
    (entries (taskFdClose slot fd.val system).2 (slot, fd)).type = .none := by
  rw [entries_taskFdClose]
  split
  · assumption
  · rw [update_self]
    rfl

theorem entries_taskFdClose_of_ne (system : System)
    {place : Fin taskMax × Fin taskFdMax} (other : place ≠ (slot, fd)) :
    entries (taskFdClose slot fd.val system).2 place = entries system place := by
  rw [entries_taskFdClose]
  split
  · rfl
  · rw [update_of_ne other]

theorem closeOps_val (system : System) : closeOps slot fd.val system =
    if (entries system (slot, fd)).Held then
      [.release (entries system (slot, fd))]
    else
      [] := by
  unfold closeOps
  rw [taskFdGet_val]
  by_cases isNone : (entries system (slot, fd)).type = .none
  · have notHeld : ¬ (entries system (slot, fd)).Held := by
      unfold TaskFd.Held
      rw [isNone]
      exact id
    rw [if_pos isNone, if_neg notHeld]
  · rw [if_neg isNone]

end

def FdOp.perform (system : System) : FdOp → System
  | .ref entry => refEntry entry system
  | .release entry => releaseEntry entry system

def System.SameObjects (first second : System) : Prop :=
  first.pipes = second.pipes ∧ first.ofiles = second.ofiles

section

variable {slot : Fin taskMax}

theorem releaseEntry_of_not_held {entry : TaskFd} (notHeld : ¬ entry.Held) (system : System) :
    releaseEntry entry system = system := by
  unfold TaskFd.Held at notHeld
  unfold releaseEntry
  cases type : entry.type with
  | file =>
    rw [type] at notHeld
    exact if_neg notHeld
  | pipeR | pipeW =>
    rw [type] at notHeld
    exact absurd trivial notHeld
  | none | sock | ptyM | ptyS => rfl

theorem taskFdClose_objects (fd : Int) (system : System) :
    (taskFdClose slot fd system).2.SameObjects
      ((closeOps slot fd system).foldl FdOp.perform system) := by
  cases isIndex : indexOf taskFdMax fd with
  | none =>
    unfold taskFdClose closeOps taskFdGet
    rw [isIndex]
    exact ⟨rfl, rfl⟩
  | some index =>
    rw [indexOf_eq_some_iff.mp isIndex, closeOps_val]
    unfold taskFdClose
    rw [indexOf_val]
    dsimp only
    by_cases held : (entries system (slot, index)).Held
    · have isSome : ((system.tasks slot).fds index).type ≠ .none := by
        intro isNone
        unfold TaskFd.Held entries at held
        rw [isNone] at held
        exact held
      rw [if_pos held, if_neg isSome]
      exact ⟨rfl, rfl⟩
    · rw [if_neg held]
      split
      · exact ⟨rfl, rfl⟩
      · have kept := releaseEntry_of_not_held held system
        unfold entries at kept
        rw [kept]
        exact ⟨rfl, rfl⟩

theorem taskFdDup2_objects (oldfd newfd : Int) (system : System) :
    (taskFdDup2 slot oldfd newfd system).2.SameObjects
        ((taskFdDup2Ops slot oldfd newfd system).foldl FdOp.perform system) ∧
      (¬ 0 ≤ (taskFdDup2 slot oldfd newfd system).1 →
        (taskFdDup2 slot oldfd newfd system).2 = system ∧
          taskFdDup2Ops slot oldfd newfd system = []) := by
  unfold taskFdDup2 taskFdDup2Ops
  cases indexOf taskFdMax oldfd with
  | none => exact ⟨⟨rfl, rfl⟩, fun _ => ⟨rfl, rfl⟩⟩
  | some old =>
    cases isNew : indexOf taskFdMax newfd with
    | none => exact ⟨⟨rfl, rfl⟩, fun _ => ⟨rfl, rfl⟩⟩
    | some new =>
      dsimp only
      by_cases same : oldfd = newfd
      · rw [if_pos same, if_pos same]
        exact ⟨⟨rfl, rfl⟩, fun _ => ⟨rfl, rfl⟩⟩
      · rw [if_neg same, if_neg same]
        by_cases counted : ((system.tasks slot).fds old).type.Counted
        · rw [if_pos counted]
          unfold FdType.Counted at counted
          rw [if_pos counted]
          refine ⟨?_, fun fails => ?_⟩
          · split
            · exact ⟨rfl, rfl⟩
            · exact taskFdClose_objects newfd _
          · have returned := indexOf_eq_some_iff.mp isNew
            exact absurd (returned ▸ Int.natCast_nonneg new.val) fails
        · rw [if_neg counted]
          unfold FdType.Counted at counted
          rw [if_neg counted]
          exact ⟨⟨rfl, rfl⟩, fun _ => ⟨rfl, rfl⟩⟩

theorem vfsDup2_objects (oldfd newfd : Int) (system : System) :
    (vfsDup2 slot oldfd newfd system).2.SameObjects
      ((vfsDup2Ops slot oldfd newfd system).foldl FdOp.perform system) := by
  have duplicated : ∀ closed : System, (vfsDup slot oldfd closed).2.SameObjects closed := by
    intro closed
    unfold vfsDup taskFdAlloc
    split
    · exact ⟨rfl, rfl⟩
    · dsimp only
      split
      · exact ⟨rfl, rfl⟩
      · exact ⟨rfl, rfl⟩
  have closed := @taskFdClose_objects slot newfd system
  unfold vfsDup2 vfsDup2Ops
  split
  · exact ⟨rfl, rfl⟩
  · cases taskFdGet slot oldfd system with
    | none => exact ⟨rfl, rfl⟩
    | some entry =>
      dsimp only
      split
      · exact ⟨(duplicated _).1.trans closed.1, (duplicated _).2.trans closed.2⟩
      · exact ⟨rfl, rfl⟩

/-- The references that are written down are those of the call: performed on the
system, they give its pipes and open files. -/
theorem sysDup2_objects (oldfd newfd : Int) (system : System) :
    (sysDup2 slot oldfd newfd system).2.SameObjects
      ((sysDup2Ops slot oldfd newfd system).foldl FdOp.perform system) := by
  obtain ⟨objects, unchanged⟩ := @taskFdDup2_objects slot oldfd newfd system
  unfold sysDup2 sysDup2Ops
  dsimp only
  split
  · exact objects
  · rename_i fails
    obtain ⟨reached, noOps⟩ := unchanged fails
    rw [reached, noOps]
    exact vfsDup2_objects oldfd newfd system

end

/-- The duplicates that do what they should: of a descriptor onto itself; of a
pipe or terminal, if no socket is in the way; of an open file, if all lower
descriptors are open and the new one does not share the open file. -/
def Dup2Clear (slot : Fin taskMax) (old new : Fin taskFdMax) (system : System) : Prop :=
  old = new ∨
  (entries system (slot, old)).type.Counted ∧
    ¬ ((entries system (slot, new)).type = .sock ∧
      (entries system (slot, new)).Held) ∨
  (entries system (slot, old)).type = .file ∧
    (openFileOf slot old.val system).isSome = true ∧
    (∀ fd, fd < new → (entries system (slot, fd)).type ≠ .none) ∧
    ¬ ((entries system (slot, new)).type = .file ∧
      (entries system (slot, new)).handle =
        (entries system (slot, old)).handle)

section

variable {slot : Fin taskMax} {old new : Fin taskFdMax} {system : System}

theorem val_inj : (old.val : Int) = new.val ↔ old = new := by
  rw [Int.ofNat_inj, Fin.val_inj]

theorem dup2Contract_self (slot : Fin taskMax) (fd : Fin taskFdMax)
    (system : System) : Dup2Contract slot fd fd system := by
  have duplicated : taskFdDup2 slot fd.val fd.val system = ((fd.val : Int), system) := by
    unfold taskFdDup2
    rw [indexOf_val]
    dsimp only
    rw [if_pos rfl]
  have result : sysDup2 slot fd.val fd.val system = ((fd.val : Int), system) := by
    unfold sysDup2
    rw [duplicated]
    rw [if_pos (by omega)]
  have ops : sysDup2Ops slot fd.val fd.val system = [] := by
    unfold sysDup2Ops taskFdDup2Ops
    rw [duplicated, indexOf_val]
    dsimp only
    rw [if_pos (by omega), if_pos rfl]
  refine ⟨by rw [result], by rw [result], ?_, ?_⟩
  · intro place _
    rw [result]
  · rw [ops, if_pos rfl]

variable (different : old ≠ new)

include different

theorem val_ne : ¬ (old.val : Int) = new.val := fun same => different (val_inj.mp same)

theorem taskFdDup2_eq : taskFdDup2 slot old.val new.val system =
      let source := entries system (slot, old)
      if source.type.Counted then
        ((new.val : Int), setFd slot new source (if (entries system (slot, new)).type = .sock then
            setFd slot new TaskFd.cleared (refEntry source system)
          else
            (taskFdClose slot new.val (refEntry source system)).2))
      else
        (-1, system) := by
  have target := congrFun (entries_refEntry (entries system (slot, old)) system) (slot, new)
  unfold taskFdDup2
  rw [indexOf_val, indexOf_val]
  dsimp only
  rw [if_neg (val_ne different), ← target]
  rfl

theorem taskFdDup2Ops_eq : taskFdDup2Ops slot old.val new.val system =
      let source := entries system (slot, old)
      if source.type.Counted then
        .ref source ::
          if (entries system (slot, new)).type = .sock then
            []
          else if (entries system (slot, new)).Held then
            [.release (entries system (slot, new))]
          else
            []
      else
        [] := by
  have target := congrFun (entries_refEntry (entries system (slot, old)) system) (slot, new)
  unfold taskFdDup2Ops
  rw [indexOf_val, indexOf_val]
  dsimp only
  rw [if_neg (val_ne different), closeOps_val, ← target]
  rfl

section

variable (counted : (entries system (slot, old)).type.Counted)

include counted

theorem sysDup2_counted : (sysDup2 slot old.val new.val system).1 = new.val ∧
    entries (sysDup2 slot old.val new.val system).2 = update (entries system) (slot, new)
        (entries system (slot, old)) ∧ sysDup2Ops slot old.val new.val system =
      taskFdDup2Ops slot old.val new.val system := by
  have duplicated : (taskFdDup2 slot old.val new.val system).1 = new.val ∧
      entries (taskFdDup2 slot old.val new.val system).2 =
        update (entries system) (slot, new) (entries system (slot, old)) := by
    rw [taskFdDup2_eq different]
    rw [if_pos counted]
    refine ⟨rfl, ?_⟩
    rw [entries_setFd]
    split
    · rw [entries_setFd, entries_refEntry, update_idem]
    · rw [entries_taskFdClose, entries_refEntry]
      split
      · rfl
      · rw [update_idem]
  have succeeds : 0 ≤ (taskFdDup2 slot old.val new.val system).1 := by
    rw [duplicated.1]
    omega
  unfold sysDup2 sysDup2Ops
  rw [if_pos succeeds, if_pos succeeds]
  exact ⟨duplicated.1, duplicated.2, rfl⟩

theorem dup2Contract_counted_iff : Dup2Contract slot old new system ↔
    ¬ ((entries system (slot, new)).type = .sock ∧ (entries system (slot, new)).Held) := by
  obtain ⟨returned, after, ops⟩ := sysDup2_counted different counted
  rw [taskFdDup2Ops_eq different] at ops
  rw [if_pos counted] at ops
  constructor
  · rintro contract ⟨isSock, held⟩
    have references := contract.references
    rw [ops, if_neg different, if_pos counted, if_pos isSock, if_pos held] at references
    cases references
  · intro noSocket
    refine ⟨returned, ?_, ?_, ?_⟩
    · rw [after, update_self]
    · intro place notTarget
      rw [after, update_of_ne notTarget]
    · rw [ops, if_neg different, if_pos counted, List.singleton_append]
      congr 1
      by_cases isSock : (entries system (slot, new)).type = .sock
      · rw [if_pos isSock, if_neg fun held => noSocket ⟨isSock, held⟩]
      · rw [if_neg isSock]

end

theorem sysDup2_other (notCounted : ¬ (entries system (slot, old)).type.Counted)
    (notFile : (entries system (slot, old)).type ≠ .file) :
    sysDup2 slot old.val new.val system = (-1, system) := by
  have duplicated : taskFdDup2 slot old.val new.val system = (-1, system) := by
    rw [taskFdDup2_eq different]
    exact if_neg notCounted
  have fails : ¬ (0 : Int) ≤ -1 := by decide
  unfold sysDup2
  rw [duplicated]
  rw [if_neg fails]
  unfold vfsDup2
  rw [if_neg (val_ne different), taskFdGet_val]
  split
  · rfl
  · rename_i entry found
    split at found
    · cases found
    · cases found
      rw [if_neg notFile]

section

variable (isFile : (entries system (slot, old)).type = .file)

include isFile

theorem sysDup2_file : sysDup2 slot old.val new.val system =
      vfsDup slot old.val (taskFdClose slot new.val system).2 ∧
    sysDup2Ops slot old.val new.val system = closeOps slot new.val system := by
  have notCounted : ¬ (entries system (slot, old)).type.Counted := by
    rw [isFile]
    decide
  have isOpen : (entries system (slot, old)).type ≠ .none := by
    rw [isFile]
    decide
  have duplicated : taskFdDup2 slot old.val new.val system = (-1, system) := by
    rw [taskFdDup2_eq different]
    exact if_neg notCounted
  have noOps : taskFdDup2Ops slot old.val new.val system = [] := by
    rw [taskFdDup2Ops_eq different]
    exact if_neg notCounted
  have fails : ¬ (0 : Int) ≤ -1 := by decide
  unfold sysDup2 sysDup2Ops
  rw [duplicated, noOps]
  rw [if_neg fails, if_neg fails, List.nil_append]
  unfold vfsDup2 vfsDup2Ops
  rw [if_neg (val_ne different), if_neg (val_ne different), taskFdGet_val, if_neg isOpen]
  dsimp only
  rw [if_pos isFile, if_pos isFile]
  exact ⟨rfl, rfl⟩

omit different in
theorem openFileOf_eq_some_iff {state : System}
    (sameEntry : entries state (slot, old) = entries system (slot, old))
    {handle : Fin fsOpenMax} : openFileOf slot old.val state = some handle ↔
      (entries system (slot, old)).handle = handle.val ∧ (state.ofiles handle).used = true := by
  have isOpen : (entries system (slot, old)).type ≠ .none := by
    rw [isFile]
    decide
  unfold openFileOf
  rw [taskFdGet_val, sameEntry, if_neg isOpen]
  dsimp only
  rw [if_pos isFile, Option.filter_eq_some_iff, indexOf_eq_some_iff]

omit different isFile in
theorem used_releaseEntry (entry : TaskFd) (handle : Fin fsOpenMax) :
    ((releaseEntry entry system).ofiles handle).used = true ↔ (system.ofiles handle).used = true ∧
        ¬ (entry.type = .file ∧ entry.handle = handle.val) := by
  by_cases released : entry.type = .file ∧ entry.handle = handle.val
  · have positive : 0 ≤ entry.handle := by omega
    have freed : (releaseEntry entry system).ofiles handle =
        { system.ofiles handle with used := false } := by
      unfold releaseEntry
      rw [released.1]
      rw [if_pos positive]
      unfold fsOfileRelease
      rw [released.2, indexOf_val]
      exact update_self _ _ _
    rw [freed]
    simp [released]
  · have kept : (releaseEntry entry system).ofiles handle = system.ofiles handle := by
      unfold releaseEntry
      split
      · rename_i isFile
        split
        · unfold fsOfileRelease
          cases found : indexOf fsOpenMax entry.handle with
          | none => rfl
          | some index =>
            have other : handle ≠ index := by
              rintro rfl
              exact released ⟨isFile, indexOf_eq_some_iff.mp found⟩
            exact update_of_ne other _ _
        · rfl
      · unfold pipeClose
        split
        · rfl
        · rfl
      · unfold pipeClose
        split
        · rfl
        · rfl
      · rfl
    rw [kept, and_iff_left released]

omit different isFile in
theorem used_taskFdClose (fd : Fin taskFdMax) (handle : Fin fsOpenMax) :
    ((taskFdClose slot fd.val system).2.ofiles handle).used = true ↔
      (system.ofiles handle).used = true ∧ ¬ ((entries system (slot, fd)).type = .file ∧
          (entries system (slot, fd)).handle = handle.val) := by
  unfold taskFdClose
  rw [indexOf_val]
  dsimp only
  split
  · rename_i isNone
    have notFile : ¬ ((entries system (slot, fd)).type = .file ∧
        (entries system (slot, fd)).handle = handle.val) := by
      rintro ⟨isFile, _⟩
      unfold entries at isFile
      rw [isNone] at isFile
      cases isFile
    exact (and_iff_left notFile).symm
  · exact used_releaseEntry _ handle

theorem openFileOf_taskFdClose_iff {handle : Fin fsOpenMax} :
    openFileOf slot old.val (taskFdClose slot new.val system).2 = some handle ↔
      openFileOf slot old.val system = some handle ∧ ¬ ((entries system (slot, new)).type = .file ∧
          (entries system (slot, new)).handle = (entries system (slot, old)).handle) := by
  have notTarget : (slot, old) ≠ (slot, new) := fun same =>
    different (Prod.mk.inj same).2
  rw [openFileOf_eq_some_iff isFile (entries_taskFdClose_of_ne slot new system notTarget),
    openFileOf_eq_some_iff isFile rfl, used_taskFdClose]
  constructor
  · rintro ⟨isHandle, used, notShared⟩
    rw [← isHandle] at notShared
    exact ⟨⟨isHandle, used⟩, notShared⟩
  · rintro ⟨⟨isHandle, used⟩, notShared⟩
    rw [isHandle] at notShared
    exact ⟨isHandle, used, notShared⟩

omit different isFile in
/-- After the new descriptor was closed, it is the first free one exactly if
all lower ones are open. -/
theorem firstIndex_taskFdClose_iff : firstIndex (fun fd : TaskFd => fd.type = .none)
      ((taskFdClose slot new.val system).2.tasks slot).fds = some new ↔
    ∀ fd, fd < new → (entries system (slot, fd)).type ≠ .none := by
  have closed : ∀ fd, fd < new → ((taskFdClose slot new.val system).2.tasks slot).fds fd =
        entries system (slot, fd) := by
    intro fd lower
    have notTarget : (slot, fd) ≠ (slot, new) := fun same =>
      absurd (Prod.mk.inj same).2 (Fin.ne_of_lt lower)
    exact entries_taskFdClose_of_ne slot new system notTarget
  have free := entries_taskFdClose_self slot new system
  rw [firstIndex_eq_some_iff]
  constructor
  · rintro ⟨_, lowerOpen⟩ fd lower
    rw [← closed fd lower]
    exact lowerOpen fd lower
  · intro lowerOpen
    refine ⟨free, ?_⟩
    intro fd lower
    rw [closed fd lower]
    exact lowerOpen fd lower

theorem dup2Contract_file_iff : Dup2Contract slot old new system ↔
    (openFileOf slot old.val system).isSome = true ∧
    (∀ fd, fd < new → (entries system (slot, fd)).type ≠ .none) ∧
    ¬ ((entries system (slot, new)).type = .file ∧ (entries system (slot, new)).handle =
        (entries system (slot, old)).handle) := by
  obtain ⟨result, ops⟩ := sysDup2_file different isFile
  rw [closeOps_val] at ops
  have opened := @openFileOf_taskFdClose_iff slot old new system different isFile
  have lowest := @firstIndex_taskFdClose_iff slot new system
  have notCounted : ¬ (entries system (slot, old)).type.Counted := by
    rw [isFile]
    decide
  constructor
  · intro contract
    have returned := contract.returns
    rw [result] at returned
    unfold vfsDup at returned
    cases found : openFileOf slot old.val (taskFdClose slot new.val system).2 with
    | none =>
      rw [found] at returned
      dsimp only at returned
      omega
    | some handle =>
      rw [found] at returned
      obtain ⟨isOpened, notShared⟩ := opened.mp found
      refine ⟨by rw [isOpened]; rfl, ?_, notShared⟩
      apply lowest.mp
      unfold taskFdAlloc at returned
      cases first : firstIndex (fun fd : TaskFd => fd.type = .none)
        ((taskFdClose slot new.val system).2.tasks slot).fds with
      | none =>
        rw [first] at returned
        simp only [answerOf] at returned
        omega
      | some fd =>
        rw [first] at returned
        rw [val_inj.mp returned]
  · rintro ⟨isOpened, lowerOpen, notShared⟩
    obtain ⟨handle, isHandle⟩ := Option.isSome_iff_exists.mp isOpened
    have found := opened.mpr ⟨isHandle, notShared⟩
    have first := lowest.mpr lowerOpen
    have sameHandle := ((openFileOf_eq_some_iff isFile rfl).mp isHandle).1
    have source : (⟨.file, handle.val⟩ : TaskFd) = entries system (slot, old) := by
      rw [← isFile, ← sameHandle]
    have duplicated : vfsDup slot old.val (taskFdClose slot new.val system).2 =
        ((new.val : Int), setFd slot new (entries system (slot, old))
          (taskFdClose slot new.val system).2) := by
      unfold vfsDup taskFdAlloc
      rw [found, first, ← source]
      rfl
    rw [duplicated] at result
    refine ⟨by rw [result], ?_, ?_, ?_⟩
    · rw [result, entries_setFd, update_self]
    · intro place notTarget
      rw [result, entries_setFd, update_of_ne notTarget,
        entries_taskFdClose_of_ne slot new system notTarget]
    · rw [ops, if_neg different, if_neg notCounted, List.nil_append]

end

end

/-- `SYS_DUP2` of an open descriptor does what it should exactly in the clear
cases. -/
theorem sysDup2_contract_iff (slot : Fin taskMax) (old new : Fin taskFdMax) (system : System) :
    Dup2Contract slot old new system ↔ Dup2Clear slot old new system := by
  by_cases same : old = new
  · subst same
    exact iff_of_true (dup2Contract_self slot old system) (Or.inl rfl)
  unfold Dup2Clear
  by_cases counted : (entries system (slot, old)).type.Counted
  · have notFile : (entries system (slot, old)).type ≠ .file := by
      intro isFile
      rw [isFile] at counted
      exact absurd counted (by decide)
    rw [dup2Contract_counted_iff same counted]
    simp only [same, counted, notFile, false_or, true_and, false_and, or_false]
  · by_cases isFile : (entries system (slot, old)).type = .file
    · rw [dup2Contract_file_iff same isFile]
      have notCounted : ¬ FdType.file.Counted := by decide
      simp only [same, isFile, notCounted, false_or, true_and, false_and]
    · -- what is left is a socket, or a descriptor that is not open
      have fails := sysDup2_other same counted isFile
      refine iff_of_false ?_ ?_
      · intro contract
        have returned := contract.returns
        rw [fails] at returned
        omega
      · simp only [same, counted, isFile, false_and, or_self, not_false_iff]

/-- A task with one open file, at descriptor 0. -/
def oneFile : System :=
  setFd 0 0 ⟨.file, 0⟩
    { booted with
      ofiles := update booted.ofiles 0
        { booted.ofiles 0 with used := true, path := [47, 97] } }

/-- Duplicating the file to descriptor 5 returns descriptor 1. -/
theorem sysDup2_misses_descriptor :
    (sysDup2 0 0 5 oneFile).1 = 1 ∧ ¬ Dup2Contract 0 0 5 oneFile := by
  have answer : (sysDup2 0 0 5 oneFile).1 = 1 := by
    decide
  refine ⟨answer, ?_⟩
  intro contract
  have returned := contract.returns
  change (sysDup2 0 0 5 oneFile).1 = 5 at returned
  rw [answer] at returned
  cases returned

end KnitOS.Tasks
