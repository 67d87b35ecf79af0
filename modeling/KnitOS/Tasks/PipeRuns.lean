import KnitOS.Tasks.PipeCounts

/-!
# Pipes along runs

Every call keeps the counters in agreement with the entries of the live tasks,
except for `SYS_PIPE` on a table without room for both ends, `task_fork` of a
task that holds a pipe, and the exit of the first task, which closes nothing.
-/

namespace KnitOS.Tasks

open Lib Function

/-- The systems differ in the descriptors of one task, in pipes and in open
files only. -/
structure Edits (slot : Fin taskMax) (system reached : System) : Prop where
  ids : ∀ other, (reached.tasks other).id = (system.tasks other).id
  states : ∀ other, (reached.tasks other).state = (system.tasks other).state
  users : ∀ other, (reached.tasks other).isUser = (system.tasks other).isUser
  nextId : reached.nextId = system.nextId
  others : ∀ other, other ≠ slot → (reached.tasks other).fds = (system.tasks other).fds

namespace Edits

variable {slot : Fin taskMax} {first second third : System}

theorem of_tasks (tasks : second.tasks = first.tasks)
    (nextId : second.nextId = first.nextId) : Edits slot first second :=
  ⟨fun _ => by rw [tasks], fun _ => by rw [tasks], fun _ => by rw [tasks],
    nextId, fun _ _ => by rw [tasks]⟩

theorem refl (slot : Fin taskMax) (system : System) : Edits slot system system := of_tasks rfl rfl

theorem trans (edits : Edits slot first second)
    (edits' : Edits slot second third) : Edits slot first third :=
  ⟨fun other => (edits'.ids other).trans (edits.ids other),
    fun other => (edits'.states other).trans (edits.states other),
    fun other => (edits'.users other).trans (edits.users other), edits'.nextId.trans edits.nextId,
    fun other different =>
      (edits'.others other different).trans (edits.others other different)⟩

theorem setFd (slot : Fin taskMax) (fd : Fin taskFdMax) (entry : TaskFd)
    (system : System) : Edits slot system (setFd slot fd entry system) := by
  have same : ∀ {α : Type} (field : Task → α),
      (∀ task fds, field { task with fds } = field task) → ∀ other,
        field ((Tasks.setFd slot fd entry system).tasks other) = field (system.tasks other) := by
    intro α field ignores other
    by_cases here : other = slot
    · subst here
      simp only [Tasks.setFd, update_self]
      exact ignores _ _
    · simp only [Tasks.setFd, update_of_ne here]
  refine ⟨same Task.id fun _ _ => rfl, same Task.state fun _ _ => rfl,
    same Task.isUser fun _ _ => rfl, rfl, ?_⟩
  intro other different
  simp only [Tasks.setFd, update_of_ne different]

attribute [ext] Task

theorem tasks_other (edits : Edits slot first second) {other : Fin taskMax}
    (different : other ≠ slot) : second.tasks other = first.tasks other :=
  Task.ext (edits.ids other) (edits.states other) (edits.users other) (edits.others other different)

end Edits

variable (slot : Fin taskMax)
include slot

theorem Edits.releaseEntry (entry : TaskFd)
    (system : System) : Edits slot system (releaseEntry entry system) :=
  Edits.of_tasks (releaseEntry_tasks entry system).1 (releaseEntry_tasks entry system).2

theorem Edits.refEntry (entry : TaskFd)
    (system : System) : Edits slot system (refEntry entry system) :=
  Edits.of_tasks (refEntry_tasks entry system).1 (refEntry_tasks entry system).2

theorem setFd_releaseEntry (fd : Fin taskFdMax)
    (written entry : TaskFd) (system : System) : setFd slot fd written (releaseEntry entry system) =
      releaseEntry entry (setFd slot fd written system) := by
  have samePipes : ∀ handle, pipeOf handle (setFd slot fd written system) =
    pipeOf handle system := fun _ => rfl
  unfold releaseEntry pipeClose fsOfileRelease
  split
  · split
    · split
      · rfl
      · rfl
    · rfl
  · rw [samePipes]
    split
    · rfl
    · rfl
  · rw [samePipes]
    split
    · rfl
    · rfl
  · rfl

theorem refEntry_setFd (fd : Fin taskFdMax)
    (written entry : TaskFd) (system : System) : refEntry entry (setFd slot fd written system) =
      setFd slot fd written (refEntry entry system) := by
  have samePipes : ∀ handle, pipeOf handle (setFd slot fd written system) =
    pipeOf handle system := fun _ => rfl
  unfold refEntry pipeRef
  split
  · rw [samePipes]
    split
    · rfl
    · rfl
  · rw [samePipes]
    split
    · rfl
    · rfl
  · rfl

omit slot

theorem cleared_noPipe : ¬ TaskFd.cleared.type.IsPipe := by decide

namespace Balanced

variable {extra : List TaskFd} {system : System} {slot : Fin taskMax}
  (balanced : Balanced extra system)
include balanced

theorem closeEntry (slot : Fin taskMax)
    (fd : Fin taskFdMax) {written : TaskFd} (noPipe : ¬ written.type.IsPipe) :
    Balanced extra (setFd slot fd written (releaseEntry (entries system (slot, fd)) system)) := by
  rw [setFd_releaseEntry]
  exact (balanced.take slot fd noPipe).release

theorem taskFdClose (slot : Fin taskMax) (fd : Int) :
    Balanced extra (taskFdClose slot fd system).2 ∧
      Edits slot system (taskFdClose slot fd system).2 := by
  unfold Tasks.taskFdClose
  split
  · exact ⟨balanced, Edits.refl _ _⟩
  · dsimp only
    split
    · exact ⟨balanced, Edits.refl _ _⟩
    · exact ⟨balanced.closeEntry slot _ (by decide),
        (Edits.releaseEntry slot _ _).trans (Edits.setFd slot _ _ _)⟩

theorem closeRounds (slot : Fin taskMax)
    (fds : List (Fin taskFdMax)) : Balanced extra (fds.foldl (closeRound slot) system) ∧
      Edits slot system (fds.foldl (closeRound slot) system) ∧
      ∀ fd, (fd ∈ fds ∨ ((system.tasks slot).fds fd).type = .none) →
        (((fds.foldl (closeRound slot) system).tasks slot).fds fd).type = .none := by
  induction fds generalizing system with
  | nil =>
    exact ⟨balanced, Edits.refl _ _, fun fd closed =>
      closed.resolve_left List.not_mem_nil⟩
  | cons fd fds ih =>
    have closed : Balanced extra (closeRound slot system fd) :=
      balanced.closeEntry slot fd (by simp [FdType.IsPipe])
    have edits : Edits slot system (closeRound slot system fd) :=
      (Edits.releaseEntry slot _ _).trans (Edits.setFd slot _ _ _)
    obtain ⟨balancedLater, editsLater, noneLater⟩ := ih closed
    refine ⟨balancedLater, edits.trans editsLater, ?_⟩
    intro other known
    refine noneLater other ?_
    by_cases here : other = fd
    · right
      subst here
      simp [closeRound, setFd]
    · rcases known with member | wasNone
      · exact Or.inl ((List.mem_cons.mp member).resolve_left here)
      · right
        simp only [closeRound, setFd, update_self, update_of_ne here, (releaseEntry_tasks _ _).1]
        exact wasNone

theorem taskFdCloseAll (slot : Fin taskMax) :
    Balanced extra (taskFdCloseAll slot system) ∧ Edits slot system (taskFdCloseAll slot system) ∧
      ∀ fd, (((taskFdCloseAll slot system).tasks slot).fds fd).type = .none := by
  obtain ⟨closed, edits, none⟩ := balanced.closeRounds slot (List.finRange taskFdMax)
  exact ⟨closed, edits, fun fd => none fd (Or.inl (List.mem_finRange fd))⟩

omit balanced

theorem taskFdAlloc {entry : TaskFd}
    (balanced : Balanced (entry :: extra) system) {fd : Fin taskFdMax}
    (found : (taskFdAlloc slot entry system).1 = some fd) :
    Balanced extra (taskFdAlloc slot entry system).2 := by
  unfold Tasks.taskFdAlloc at found ⊢
  split at found
  · cases found
  · rename_i free isFree
    have isNone := meets_of_firstIndex isFree
    refine balanced.put ?_
    simp only [entries]
    rw [isNone]
    decide

end Balanced

theorem Edits.taskFdAlloc (slot : Fin taskMax) (entry : TaskFd)
    (system : System) : Edits slot system (taskFdAlloc slot entry system).2 := by
  unfold Tasks.taskFdAlloc
  split
  · exact Edits.refl _ _
  · exact Edits.setFd slot _ _ _

/-- The system after a call of a task: its counters agree with the entries, and
only the caller's entries changed. -/
def Kept (slot : Fin taskMax) (system reached : System) : Prop :=
  Balanced [] reached ∧ Edits slot system reached

section

variable (slot : Fin taskMax) {system : System}

theorem kept_taskFdAlloc (balanced : Balanced [] system) {entry : TaskFd}
    (noPipe : ¬ entry.type.IsPipe) : Kept slot system (taskFdAlloc slot entry system).2 := by
  refine ⟨?_, Edits.taskFdAlloc slot entry system⟩
  cases found : (taskFdAlloc slot entry system).1 with
  | none =>
    have same : (taskFdAlloc slot entry system).2 = system := by
      unfold taskFdAlloc at found ⊢
      split at found
      · rfl
      · cases found
    rw [same]
    exact balanced
  | some fd => exact ((Balanced.cons_iff noPipe).mpr balanced).taskFdAlloc found

theorem kept_vfsDup (balanced : Balanced [] system) (fd : Int) :
    Kept slot system (vfsDup slot fd system).2 := by
  unfold vfsDup
  split
  · exact ⟨balanced, Edits.refl _ _⟩
  · exact kept_taskFdAlloc slot balanced (by simp [FdType.IsPipe])

theorem kept_vfsDup2 (balanced : Balanced [] system) (oldfd newfd : Int) :
    Kept slot system (vfsDup2 slot oldfd newfd system).2 := by
  unfold vfsDup2
  split
  · exact ⟨balanced, Edits.refl _ _⟩
  · split
    · exact ⟨balanced, Edits.refl _ _⟩
    · split
      · have closed := balanced.taskFdClose slot newfd
        have duplicated := kept_vfsDup slot closed.1 oldfd
        exact ⟨duplicated.1, closed.2.trans duplicated.2⟩
      · exact ⟨balanced, Edits.refl _ _⟩

theorem taskFdClose_noPipe {fd : Int} {index : Fin taskFdMax}
    (inRange : indexOf taskFdMax fd = some index) (system : System) :
    ¬ (entries (taskFdClose slot fd system).2 (slot, index)).type.IsPipe := by
  unfold taskFdClose
  rw [inRange]
  dsimp only
  split
  · rename_i isNone
    unfold entries
    rw [isNone]
    decide
  · rw [entries_setFd, update_self]
    decide

theorem kept_taskFdDup2 (balanced : Balanced [] system) (oldfd newfd : Int) :
    Kept slot system (taskFdDup2 slot oldfd newfd system).2 := by
  unfold taskFdDup2
  split
  · rename_i old new _ newInRange
    split
    · exact ⟨balanced, Edits.refl _ _⟩
    · dsimp only
      split
      · have referred := balanced.ref (balanced.backed (slot, old))
        have refEdits := Edits.refEntry slot (entries system (slot, old)) system
        split
        · -- a socket at the new number is closed outside the table
          rename_i isSock
          have noPipe : ¬ (entries (refEntry (entries system (slot, old)) system)
              (slot, new)).type.IsPipe := by
            unfold entries
            rw [isSock]
            decide
          have cleared := (Balanced.cons_iff noPipe).mp (referred.take slot new cleared_noPipe)
          refine ⟨cleared.put ?_, ?_⟩
          · rw [entries_setFd, update_self]
            decide
          · exact (refEdits.trans (Edits.setFd slot new _ _)).trans (Edits.setFd slot new _ _)
        · have closed := referred.taskFdClose slot newfd
          refine ⟨closed.1.put (taskFdClose_noPipe slot newInRange _), ?_⟩
          exact (refEdits.trans closed.2).trans (Edits.setFd slot new _ _)
      · exact ⟨balanced, Edits.refl _ _⟩
  · exact ⟨balanced, Edits.refl _ _⟩

theorem kept_sysDup2 (balanced : Balanced [] system) (oldfd newfd : Int) :
    Kept slot system (sysDup2 slot oldfd newfd system).2 := by
  have duplicated := kept_taskFdDup2 slot balanced oldfd newfd
  unfold sysDup2
  dsimp only
  split
  · exact duplicated
  · have opened := kept_vfsDup2 slot duplicated.1 oldfd newfd
    exact ⟨opened.1, duplicated.2.trans opened.2⟩

def freeEntries (slot : Fin taskMax) (system : System) : Nat :=
  tally (fun fd : TaskFd => fd.type = .none) (system.tasks slot).fds

theorem isSome_taskFdAlloc (room : 0 < freeEntries slot system)
    (entry : TaskFd) : ∃ fd, (taskFdAlloc slot entry system).1 = some fd := by
  have found : (firstIndex (fun fd : TaskFd => fd.type = .none)
      (system.tasks slot).fds).isSome := by
    by_contra notFound
    have noneFree : freeEntries slot system = 0 := tally_eq_zero_iff.mpr fun fd free =>
        notFound (firstIndex_isSome free)
    omega
  unfold taskFdAlloc
  split
  · rename_i isNone
    rw [isNone] at found
    cases found
  · exact ⟨_, rfl⟩

theorem freeEntries_taskFdAlloc (entry : TaskFd) (system : System) : freeEntries slot system ≤
    freeEntries slot (taskFdAlloc slot entry system).2 + 1 := by
  unfold taskFdAlloc
  split
  · exact Nat.le_succ _
  · rename_i fd found
    unfold freeEntries
    have wasFree := meets_of_firstIndex found
    have written : tally (fun fd : TaskFd => fd.type = .none)
          (update (system.tasks slot).fds fd entry) + _ = _ + _ :=
      tally_update (system.tasks slot).fds fd entry
    rw [if_pos wasFree] at written
    simp only [setFd, update_self]
    omega

variable (balanced : Balanced [] system)
include balanced

theorem kept_sysPipe (copied : Bool)
    (room : 2 ≤ freeEntries slot system ∨ ∀ index, (system.pipes index).used = true) :
    Kept slot system (sysPipe slot copied system).2 := by
  unfold sysPipe pipeCreate
  cases found : firstIndex (fun pipe : Kpipe => pipe.used = false) system.pipes with
  | none => exact ⟨balanced, Edits.refl _ _⟩
  | some index =>
    have unused := meets_of_firstIndex found
    have twoFree : 2 ≤ freeEntries slot system := by
      refine room.resolve_right fun allUsed => ?_
      rw [allUsed index] at unused
      cases unused
    have created := balanced.create unused
    have createEdits : Edits slot system (setPipe index
      { used := true, data := [], readers := 1, writers := 1 } system) := Edits.of_tasks rfl rfl
    dsimp only
    have sameFree : freeEntries slot (setPipe index
      { used := true, data := [], readers := 1, writers := 1 } system) =
        freeEntries slot system := rfl
    generalize setPipe index { used := true, data := [], readers := 1, writers := 1 } system =
      reached at created createEdits sameFree ⊢
    obtain ⟨reading, readFound⟩ := isSome_taskFdAlloc slot
      (show 0 < freeEntries slot reached by omega) ⟨.pipeR, index.val⟩
    have left := freeEntries_taskFdAlloc slot ⟨.pipeR, index.val⟩ reached
    have readKept := created.taskFdAlloc readFound
    have readEdits := Edits.taskFdAlloc slot ⟨.pipeR, index.val⟩ reached
    obtain ⟨writing, writeFound⟩ := isSome_taskFdAlloc slot (show 0 < freeEntries slot
      (taskFdAlloc slot ⟨.pipeR, index.val⟩ reached).2 by omega) ⟨.pipeW, index.val⟩
    have writeKept := readKept.taskFdAlloc writeFound
    have writeEdits := Edits.taskFdAlloc slot ⟨.pipeW, index.val⟩
      (taskFdAlloc slot ⟨.pipeR, index.val⟩ reached).2
    have kept : Kept slot system (taskFdAlloc slot ⟨.pipeW, index.val⟩
        (taskFdAlloc slot ⟨.pipeR, index.val⟩ reached).2).2 :=
      ⟨writeKept, (createEdits.trans readEdits).trans writeEdits⟩
    split
    · exact kept
    · exact kept

theorem kept_setPipe {index : Fin kpipeMax} {data : List UInt8} : Kept slot system (setPipe index
    { system.pipes index with data := data } system) := by
  have sameCounter : ∀ type, counter type { system.pipes index with data := data } =
      counter type (system.pipes index) := by
    intro type
    cases type <;> rfl
  refine ⟨balanced.writePipe rfl ?_ ?_, Edits.of_tasks rfl rfl⟩
  · intro type isPipe used
    rw [sameCounter]
    exact balanced.counts type isPipe index used
  · intro type isPipe held
    by_contra unused
    obtain ⟨noHolder, noExtra⟩ :=
      balanced.nothing_refers (Bool.eq_false_of_not_eq_true unused) isPipe
    omega

theorem kept_pipeRead (handle : Int)
    (size : Nat) : Kept slot system (pipeRead handle size system).2 := by
  have unchanged : Kept slot system system := ⟨balanced, Edits.refl _ _⟩
  unfold pipeRead
  split
  · exact unchanged
  · dsimp only
    split
    · exact unchanged
    · split
      · split
        · exact unchanged
        · exact unchanged
      · exact kept_setPipe slot balanced

theorem kept_pipeWrite (handle : Int) (data : List UInt8) :
    Kept slot system (pipeWrite handle data system).2 := by
  have unchanged : Kept slot system system := ⟨balanced, Edits.refl _ _⟩
  unfold pipeWrite
  split
  · exact unchanged
  · dsimp only
    split
    · exact unchanged
    · split
      · exact unchanged
      · split
        · exact kept_setPipe slot balanced
        · exact kept_setPipe slot balanced

end

/-- Ids tell the slots in use apart, and only the first slot has the id of the
first task. -/
structure Identified (system : System) : Prop where
  cleared : ∀ slot, (system.tasks slot).state = .unused → (system.tasks slot).id = 0
  first : ∀ slot, (system.tasks slot).id = 0 → (system.tasks slot).state ≠ .unused → slot = 0
  issued : ∀ slot, (system.tasks slot).id < system.nextId
  distinct : ∀ slot other, (system.tasks slot).state ≠ .unused →
    (system.tasks other).state ≠ .unused →
      (system.tasks slot).id = (system.tasks other).id → slot = other

/-- The descriptors of a task hold no pipe. -/
def NoPipes (slot : Fin taskMax) (system : System) : Prop :=
  ∀ fd, ¬ ((system.tasks slot).fds fd).type.IsPipe

instance decidableNoPipes (slot : Fin taskMax) (system : System) :
    Decidable (NoPipes slot system) :=
  inferInstanceAs (Decidable (∀ _, _))

/-- The invariant of every run. -/
structure Holds (system : System) : Prop where
  balanced : Balanced [] system
  quiet : ∀ slot, ¬ (system.tasks slot).Live → NoPipes slot system
  identified : Identified system

variable {system reached : System} {slot : Fin taskMax}

theorem Edits.live_iff (edits : Edits slot system reached) (other : Fin taskMax) :
    (reached.tasks other).Live ↔ (system.tasks other).Live := by
  unfold Task.Live
  rw [edits.states other]

theorem Identified.edits
    (identified : Identified system) (edits : Edits slot system reached) : Identified reached := by
  refine ⟨?_, ?_, ?_, ?_⟩
  · intro other unused
    rw [edits.states] at unused
    rw [edits.ids]
    exact identified.cleared other unused
  · intro other isFirst inUse
    rw [edits.ids] at isFirst
    rw [edits.states] at inUse
    exact identified.first other isFirst inUse
  · intro other
    rw [edits.ids, edits.nextId]
    exact identified.issued other
  · intro other another inUse inUse' same
    rw [edits.states] at inUse inUse'
    rw [edits.ids, edits.ids] at same
    exact identified.distinct other another inUse inUse' same

theorem Holds.edits (holds : Holds system) (quiet : (system.tasks slot).Live ∨ NoPipes slot reached)
    (kept : Kept slot system reached) : Holds reached := by
  refine ⟨kept.1, ?_, holds.identified.edits kept.2⟩
  intro other notLive
  rw [kept.2.live_iff] at notLive
  by_cases here : other = slot
  · rw [here] at notLive ⊢
    exact quiet.resolve_left notLive
  · unfold NoPipes
    rw [kept.2.others other here]
    exact holds.quiet other notLive

theorem Identified.findTask (identified : Identified system)
    (inUse : (system.tasks slot).state ≠ .unused) :
    findTask (system.tasks slot).id system = some slot := by
  have found : (slotById Task.state Task.id (system.tasks slot).id system.tasks).isSome := by
    unfold slotById
    exact firstIndex_isSome ⟨inUse, rfl⟩
  obtain ⟨other, isOther⟩ := Option.isSome_iff_exists.mp found
  obtain ⟨otherInUse, sameId⟩ := meets_of_firstIndex isOther
  rw [Tasks.findTask, isOther, identified.distinct other slot otherInUse inUse sameId]

theorem Balanced.rewritten (balanced : Balanced [] system) (pipes : reached.pipes = system.pipes)
    (same : ∀ place, entries reached place = entries system place ∨
      (¬ (entries reached place).type.IsPipe ∧
        ¬ (entries system place).type.IsPipe)) : Balanced [] reached := by
  have sameRefers : ∀ type : FdType, type.IsPipe → ∀ index place,
      (entries reached place).Refers type index ↔ (entries system place).Refers type index := by
    intro type isPipe index place
    rcases same place with equal | ⟨noPipe, wasNoPipe⟩
    · rw [equal]
    · exact iff_of_false (fun refers => noPipe (refers_isPipe isPipe refers))
        (fun refers => wasNoPipe (refers_isPipe isPipe refers))
  refine ⟨?_, ?_, ?_⟩
  · intro type isPipe index used
    rw [pipes] at used ⊢
    have sameHolders : holders type index reached = holders type index system := by
      unfold holders tally
      simp only [sameRefers type isPipe index]
    rw [sameHolders]
    exact balanced.counts type isPipe index used
  · intro place isPipe
    rcases same place with equal | ⟨noPipe, _⟩
    · rw [equal] at isPipe ⊢
      rw [pipeOf_congr pipes]
      exact balanced.backed place isPipe
    · exact absurd isPipe noPipe
  · intro entry member
    exact absurd member List.not_mem_nil

section

variable {slot : Fin taskMax} {task : Task} {system reached : System}

theorem tasks_of_update (tasks : reached.tasks = update system.tasks slot task)
    (other : Fin taskMax) : (other = slot ∧ reached.tasks other = task) ∨
      (other ≠ slot ∧ reached.tasks other = system.tasks other) := by
  rw [tasks]
  by_cases here : other = slot
  · subst here
    exact Or.inl ⟨rfl, update_self ..⟩
  · exact Or.inr ⟨here, update_of_ne here ..⟩

theorem Identified.replaced (identified : Identified system)
    (tasks : reached.tasks = update system.tasks slot task)
    (later : system.nextId ≤ reached.nextId) (cleared : task.state = .unused → task.id = 0)
    (first : task.id = 0 → task.state ≠ .unused → slot = 0) (issued : task.id < reached.nextId)
    (distinct : task.state ≠ .unused → ∀ other, other ≠ slot →
      (system.tasks other).state ≠ .unused →
        (system.tasks other).id ≠ task.id) : Identified reached := by
  refine ⟨?_, ?_, ?_, ?_⟩
  · intro other
    rcases tasks_of_update tasks other with ⟨_, eq⟩ | ⟨_, eq⟩
    · rw [eq]
      exact cleared
    · rw [eq]
      exact identified.cleared other
  · intro other
    rcases tasks_of_update tasks other with ⟨here, eq⟩ | ⟨_, eq⟩
    · rw [eq, here]
      exact first
    · rw [eq]
      exact identified.first other
  · intro other
    rcases tasks_of_update tasks other with ⟨_, eq⟩ | ⟨_, eq⟩
    · rw [eq]
      exact issued
    · rw [eq]
      exact lt_of_lt_of_le (identified.issued other) later
  · intro other another
    rcases tasks_of_update tasks other with ⟨here, eq⟩ | ⟨away, eq⟩
    · rcases tasks_of_update tasks another with ⟨here', _⟩ | ⟨away', eq'⟩
      · intro _ _ _
        rw [here, here']
      · rw [eq, eq']
        intro inUse inUse' same
        exact absurd same.symm (distinct inUse another away' inUse')
    · rcases tasks_of_update tasks another with ⟨_, eq'⟩ | ⟨_, eq'⟩
      · rw [eq, eq']
        intro inUse inUse' same
        exact absurd same (distinct inUse' other away inUse)
      · rw [eq, eq']
        exact identified.distinct other another

theorem Holds.replaced (holds : Holds system)
    (tasks : reached.tasks = update system.tasks slot task)
    (pipes : reached.pipes = system.pipes) (same : ∀ fd, task.fds fd = (system.tasks slot).fds fd ∨
      (¬ (task.fds fd).type.IsPipe ∧ ¬ ((system.tasks slot).fds fd).type.IsPipe))
    (quiet : ¬ task.Live → ∀ fd, ¬ (task.fds fd).type.IsPipe)
    (identified : Identified reached) : Holds reached := by
  refine ⟨holds.balanced.rewritten pipes ?_, ?_, identified⟩
  · intro place
    unfold entries
    rcases tasks_of_update tasks place.1 with ⟨here, eq⟩ | ⟨_, eq⟩
    · rw [eq, here]
      exact same place.2
    · rw [eq]
      exact Or.inl rfl
  · intro other
    unfold NoPipes
    rcases tasks_of_update tasks other with ⟨_, eq⟩ | ⟨_, eq⟩
    · rw [eq]
      exact quiet
    · rw [eq]
      exact holds.quiet other

end

section

variable {slot : Fin taskMax} {system : System}

theorem not_live_of_zombie (zombie : (system.tasks slot).state = .zombie) :
    ¬ (system.tasks slot).Live := fun live => live.2 zombie

theorem not_live_of_unused (unused : (system.tasks slot).state = .unused) :
    ¬ (system.tasks slot).Live := fun live => live.1 unused

variable (holds : Holds system)
include holds

theorem kept_taskResourcesCleanup (inUse : (system.tasks slot).state ≠ .unused) :
    Kept slot system (taskResourcesCleanup (system.tasks slot).id system) ∧
      NoPipes slot (taskResourcesCleanup (system.tasks slot).id system) := by
  unfold taskResourcesCleanup
  rw [holds.identified.findTask inUse]
  obtain ⟨closed, edits, none⟩ := holds.balanced.taskFdCloseAll slot
  refine ⟨⟨closed, edits⟩, ?_⟩
  intro fd
  rw [none fd]
  decide

theorem Holds.cleaned (zombie : (system.tasks slot).state = .zombie) :
    Holds (taskResourcesCleanup (system.tasks slot).id system) := by
  have inUse : (system.tasks slot).state ≠ .unused := by
    rw [zombie]
    decide
  obtain ⟨kept, none⟩ := kept_taskResourcesCleanup holds inUse
  exact holds.edits (Or.inr none) kept

theorem Holds.emptied (notLive : ¬ (system.tasks slot).Live) :
    Holds (setTask slot Task.cleared system) := by
  have nextPositive : 0 < system.nextId := Nat.zero_lt_of_lt (holds.identified.issued slot)
  refine holds.replaced rfl rfl ?_ ?_ (holds.identified.replaced rfl le_rfl ?_ ?_ nextPositive ?_)
  · intro fd
    exact Or.inr ⟨cleared_noPipe, holds.quiet slot notLive fd⟩
  · intro _ fd
    exact cleared_noPipe
  · intro _
    rfl
  · intro _ inUse
    exact absurd rfl inUse
  · intro inUse
    exact absurd rfl inUse

theorem Holds.taskSlotClear (zombie : (system.tasks slot).state = .zombie) :
    Holds (taskSlotClear slot system) ∧ ((taskSlotClear slot system).tasks slot).state = .unused ∧
      ∀ other, other ≠ slot → (taskSlotClear slot system).tasks other = system.tasks other := by
  have clear : ∀ cleaned : System, Holds cleaned → ¬ (cleaned.tasks slot).Live →
      (∀ other, other ≠ slot → cleaned.tasks other = system.tasks other) →
      Holds (setTask slot Task.cleared cleaned) ∧
        ((setTask slot Task.cleared cleaned).tasks slot).state = .unused ∧ ∀ other, other ≠ slot →
          (setTask slot Task.cleared cleaned).tasks other = system.tasks other := by
    intro cleaned holdsCleaned notLive others
    refine ⟨holdsCleaned.emptied notLive, ?_, ?_⟩
    · simp only [setTask, update_self]
      rfl
    · intro other different
      simp only [setTask, update_of_ne different]
      exact others other different
  unfold Tasks.taskSlotClear
  dsimp only
  split
  · have inUse : (system.tasks slot).state ≠ .unused := by
      rw [zombie]
      decide
    obtain ⟨kept, _⟩ := kept_taskResourcesCleanup holds inUse
    refine clear _ (holds.cleaned zombie) ?_ fun other different =>
      kept.2.tasks_other different
    rw [kept.2.live_iff]
    exact not_live_of_zombie zombie
  · exact clear _ holds (not_live_of_zombie zombie) fun _ _ => rfl

omit holds

variable {child : Fin taskMax}

theorem Holds.taskAllocSlot (holds : Holds system)
    {allocated : System} (found : taskAllocSlot system = (some child, allocated)) :
    Holds allocated ∧ (allocated.tasks child).state = .unused ∧ ¬ (system.tasks child).Live ∧
      ∀ other, other ≠ child → allocated.tasks other = system.tasks other := by
  unfold Tasks.taskAllocSlot at found
  split at found
  · cases found
  · rename_i slot isFirst
    have free := meets_of_firstIndex isFirst
    split at found
    · rename_i zombie
      cases found
      obtain ⟨cleared, unused, others⟩ := holds.taskSlotClear zombie
      exact ⟨cleared, unused, not_live_of_zombie zombie, others⟩
    · rename_i notZombie
      cases found
      have unused := free.resolve_left notZombie
      exact ⟨holds, unused, not_live_of_unused unused, fun _ _ => rfl⟩

theorem taskAllocSlot_none {allocated : System} (found : taskAllocSlot system = (none, allocated)) :
    allocated = system := by
  unfold taskAllocSlot at found
  split at found
  · cases found
    rfl
  · cases found

theorem Holds.startTask (holds : Holds system)
    (unused : (system.tasks child).state = .unused) (isUser : Bool) :
    Holds (startTask child isUser system) := by
  have ready : TaskState.ready ≠ .unused := by decide
  have nextPositive : 0 < system.nextId := Nat.zero_lt_of_lt (holds.identified.issued child)
  refine holds.replaced rfl rfl (fun _ => Or.inl rfl) ?_
    (holds.identified.replaced rfl (Nat.le_succ _) ?_ ?_ (Nat.lt_succ_self _) ?_)
  · intro _
    exact holds.quiet child (not_live_of_unused unused)
  · intro isUnused
    exact absurd isUnused ready
  · intro isZero
    exact absurd isZero nextPositive.ne'
  · intro _ other _ _
    exact (holds.identified.issued other).ne

theorem Holds.setFds (holds : Holds system)
    {fds : Fin taskFdMax → TaskFd} (noPipes : NoPipes slot system)
    (stillNoPipes : ∀ fd, ¬ (fds fd).type.IsPipe) :
    Holds (setTask slot { system.tasks slot with fds } system) := by
  refine holds.replaced rfl rfl (fun fd => Or.inr ⟨stillNoPipes fd, noPipes fd⟩)
    (fun _ => stillNoPipes) (holds.identified.replaced rfl le_rfl (holds.identified.cleared slot)
      (holds.identified.first slot) (holds.identified.issued slot) ?_)
  intro inUse other different otherInUse same
  exact different (holds.identified.distinct other slot otherInUse inUse same)

theorem startTask_self (child : Fin taskMax) (isUser : Bool) (system : System) :
    (startTask child isUser system).tasks child =
      { system.tasks child with id := system.nextId, state := .ready, isUser } :=
  update_self ..

theorem startTask_other {other : Fin taskMax}
    (different : other ≠ child) (isUser : Bool) (system : System) :
    (startTask child isUser system).tasks other = system.tasks other :=
  update_of_ne different ..

variable (holds : Holds system)
include holds

theorem noPipes_startTask (unused : (system.tasks child).state = .unused) (isUser : Bool) :
    NoPipes child (startTask child isUser system) := by
  unfold NoPipes
  rw [startTask_self]
  exact holds.quiet child (not_live_of_unused unused)

theorem Holds.taskCreate (isUser granted : Bool) : Holds (taskCreate isUser granted system).2 := by
  unfold Tasks.taskCreate
  split
  · rename_i allocated found
    rw [taskAllocSlot_none found]
    exact holds
  · rename_i child allocated found
    obtain ⟨holdsAllocated, unused, _, _⟩ := holds.taskAllocSlot found
    split
    · exact (holdsAllocated.startTask unused isUser).setFds
        (noPipes_startTask holdsAllocated unused isUser) fun _ => cleared_noPipe
    · exact holdsAllocated

theorem Holds.taskFork (live : (system.tasks slot).Live) (noPipes : NoPipes slot system)
    (granted : Bool) : Holds (taskFork slot granted system).2 := by
  unfold Tasks.taskFork
  split
  · rename_i allocated found
    rw [taskAllocSlot_none found]
    exact holds
  · rename_i child allocated found
    obtain ⟨holdsAllocated, unused, notLive, others⟩ := holds.taskAllocSlot found
    have different : slot ≠ child := by
      rintro rfl
      exact notLive live
    split
    · refine (holdsAllocated.startTask unused _).setFds
        (noPipes_startTask holdsAllocated unused _) ?_
      rw [startTask_other different, others slot different]
      exact noPipes
    · exact holdsAllocated

theorem Holds.setState {state : TaskState}
    (quiet : state = .zombie ∨ state = .unused → NoPipes slot system) (known : state ≠ .unused →
      (system.tasks slot).state ≠ .unused ∨ slot = 0)
    (cleared : state = .unused → (system.tasks slot).id = 0) :
    Holds (setState slot state system) := by
  have identified := holds.identified
  refine holds.replaced rfl rfl (fun _ => Or.inl rfl) ?_
    (identified.replaced rfl le_rfl cleared ?_ (identified.issued slot) ?_)
  · intro notLive
    refine quiet ?_
    by_contra neither
    exact notLive ⟨fun unused => neither (Or.inr unused), fun zombie => neither (Or.inl zombie)⟩
  · intro isFirst inUse
    exact (known inUse).elim (identified.first slot isFirst) id
  · intro inUse other different otherInUse same
    by_cases wasInUse : (system.tasks slot).state ≠ .unused
    · exact different (identified.distinct other slot otherInUse wasInUse same)
    · have isZero := identified.cleared slot (not_not.mp wasInUse)
      have isSlotZero := (known inUse).resolve_left wasInUse
      have isOtherZero := identified.first other (same.trans isZero) otherInUse
      exact different (isOtherZero.trans isSlotZero.symm)

theorem Holds.taskExit (live : (system.tasks slot).Live)
    (keepsFirst : (system.tasks slot).id = taskPidSystemd → NoPipes slot system)
    (alone : Bool) : Holds (taskExit slot alone system) := by
  have zombie : ∀ cleaned : System, Holds cleaned → NoPipes slot cleaned →
      (cleaned.tasks slot).state ≠ .unused → Holds (if alone = true ∧
          (((Tasks.setState slot .zombie cleaned).tasks 0).state = .zombie ∨
            ((Tasks.setState slot .zombie cleaned).tasks 0).state = .unused)
        then Tasks.setState 0 .running (Tasks.setState slot .zombie cleaned)
        else Tasks.setState slot .zombie cleaned) := by
    intro cleaned holdsCleaned noPipes inUse
    have exited : Holds (Tasks.setState slot .zombie cleaned) :=
      holdsCleaned.setState (fun _ => noPipes) (fun _ => Or.inl inUse) TaskState.noConfusion
    split
    · exact exited.setState (fun ends => ends.elim TaskState.noConfusion
        TaskState.noConfusion) (fun _ => Or.inr rfl) TaskState.noConfusion
    · exact exited
  unfold Tasks.taskExit
  dsimp only
  split
  · obtain ⟨kept, noPipes⟩ := kept_taskResourcesCleanup holds live.1
    refine zombie _ (holds.edits (Or.inl live) kept) noPipes ?_
    rw [kept.2.states]
    exact live.1
  · rename_i isFirst
    exact zombie _ holds (keepsFirst (not_not.mp isFirst)) live.1

omit holds

theorem forkRounds (fds : List (Fin taskFdMax)) (distinct : fds.Nodup)
    (balanced : Balanced [] system)
    (free : ∀ fd ∈ fds, ¬ ((system.tasks child).fds fd).type.IsPipe) :
    Kept child system (fds.foldl (forkRound slot child) system) := by
  induction fds generalizing system with
  | nil => exact ⟨balanced, Edits.refl _ _⟩
  | cons fd fds ih =>
    have edits : Edits child system (forkRound slot child system fd) :=
      (Edits.setFd child fd _ _).trans (Edits.refEntry child _ _)
    have copied : Balanced [] (forkRound slot child system fd) := by
      unfold forkRound
      rw [refEntry_setFd]
      refine (balanced.ref (balanced.backed (slot, fd))).put ?_
      unfold entries
      rw [(refEntry_tasks _ _).1]
      exact free fd List.mem_cons_self
    have stillFree : ∀ other ∈ fds, ¬ (((forkRound slot child system fd).tasks
        child).fds other).type.IsPipe := by
      intro other member
      have away : other ≠ fd := by
        rintro rfl
        exact (List.nodup_cons.mp distinct).1 member
      unfold forkRound
      rw [(refEntry_tasks _ _).1]
      simp only [setFd, update_self, update_of_ne away]
      exact free other (List.mem_cons_of_mem _ member)
    have later := ih (List.nodup_cons.mp distinct).2 copied stillFree
    exact ⟨later.1, edits.trans later.2⟩

theorem Holds.taskForkUser (holds : Holds system) (granted : Bool) :
    Holds (taskForkUser slot granted system).2 := by
  unfold Tasks.taskForkUser
  split
  · split
    · rename_i allocated found
      rw [taskAllocSlot_none found]
      exact holds
    · rename_i child allocated found
      obtain ⟨holdsAllocated, unused, _, _⟩ := holds.taskAllocSlot found
      split
      · have started := holdsAllocated.startTask unused true
        refine started.edits (Or.inl ?_) (forkRounds (List.finRange taskFdMax)
          (List.nodup_finRange _) started.balanced fun fd _ =>
            noPipes_startTask holdsAllocated unused true fd)
        rw [startTask_self]
        exact ⟨TaskState.noConfusion, TaskState.noConfusion⟩
      · exact holdsAllocated.setState
          (fun _ => holdsAllocated.quiet child (not_live_of_unused unused))
          (fun inUse => absurd rfl inUse) (fun _ => holdsAllocated.identified.cleared child unused)
  · exact holds

end

/-- The entries of live tasks that refer to an end of a pipe. -/
def liveHolders (type : FdType) (index : Fin kpipeMax) (system : System) : Nat :=
  tally (fun place : Fin taskMax × Fin taskFdMax =>
    (system.tasks place.1).Live ∧ (entries system place).Refers type index) id

/-- Counters of used pipes agree with the entries of live tasks, an unused pipe
has no such entry, and a read answers end of file exactly when the pipe is empty
and no entry can write to it. -/
structure PipesCounted (system : System) : Prop where
  readers : ∀ index, (system.pipes index).used = true →
    (system.pipes index).readers = liveHolders .pipeR index system
  writers : ∀ index, (system.pipes index).used = true →
    (system.pipes index).writers = liveHolders .pipeW index system
  recycled : ∀ index, (system.pipes index).used = false →
    liveHolders .pipeR index system = 0 ∧ liveHolders .pipeW index system = 0
  endOfFile : ∀ place : Fin taskMax × Fin taskFdMax, ∀ index,
    (system.tasks place.1).Live → (entries system place).Refers .pipeR index → ∀ size, 0 < size →
        ((pipeRead (entries system place).handle size system).1 = .returns [] ↔
          liveHolders .pipeW index system = 0 ∧ (system.pipes index).data = [])

/-- A call that keeps the counters: `SYS_PIPE` finds room for both ends or no
pipe, `task_fork` copies no pipe, and the first task exits without pipes. -/
def KeepsCounts (system : System) (input : Fin taskMax × Call) : Prop :=
  match input.2 with
  | .pipe _ => 2 ≤ freeEntries input.1 system ∨
      ∀ index, (system.pipes index).used = true
  | .fork _ => NoPipes input.1 system
  | .exit _ => (system.tasks input.1).id = taskPidSystemd →
      NoPipes input.1 system
  | _ => True

instance decidableKeepsCounts (system : System) : ∀ input, Decidable (KeepsCounts system input)
  | (slot, .pipe _) => inferInstanceAs (Decidable
      (2 ≤ freeEntries slot system ∨
        ∀ index, (system.pipes index).used = true))
  | (slot, .fork _) => inferInstanceAs (Decidable (NoPipes slot system))
  | (slot, .exit _) => inferInstanceAs (Decidable
      ((system.tasks slot).id = taskPidSystemd → NoPipes slot system))
  | (_, .dup2 _ _) => isTrue trivial
  | (_, .dup _) => isTrue trivial
  | (_, .close _) => isTrue trivial
  | (_, .read _ _) => isTrue trivial
  | (_, .write _ _) => isTrue trivial
  | (_, .other _ _) => isTrue trivial
  | (_, .create _ _) => isTrue trivial
  | (_, .forkUser _) => isTrue trivial
  | (_, .exec) => isTrue trivial

theorem Holds.liveHolders_eq (holds : Holds system)
    {type : FdType} (isPipe : type.IsPipe) (index : Fin kpipeMax) :
    liveHolders type index system = holders type index system := by
  unfold liveHolders holders tally
  congr 1
  refine Finset.filter_congr fun place _ => ?_
  refine and_iff_right_of_imp fun refers => ?_
  by_contra notLive
  exact holds.quiet place.1 notLive place.2 (refers_isPipe isPipe refers)

theorem Holds.pipesCounted (holds : Holds system) : PipesCounted system := by
  have isR : FdType.pipeR.IsPipe := Or.inl rfl
  have isW : FdType.pipeW.IsPipe := Or.inr rfl
  have noneUnused : ∀ type : FdType, type.IsPipe → ∀ index,
      (system.pipes index).used = false → liveHolders type index system = 0 := by
    intro type isPipe index unused
    rw [holds.liveHolders_eq isPipe]
    exact (holds.balanced.nothing_refers unused isPipe).1
  have writers : ∀ index, (system.pipes index).used = true →
      (system.pipes index).writers = liveHolders .pipeW index system := by
    intro index used
    rw [holds.liveHolders_eq isW]
    exact (holds.balanced.counts .pipeW isW index used).trans (by simp)
  refine ⟨?_, writers, fun index unused =>
    ⟨noneUnused _ isR index unused, noneUnused _ isW index unused⟩, ?_⟩
  · intro index used
    rw [holds.liveHolders_eq isR]
    exact (holds.balanced.counts .pipeR isR index used).trans (by simp)
  · intro place index _ refers size positive
    obtain ⟨other, found⟩ := Option.isSome_iff_exists.mp
      (holds.balanced.backed place (refers_isPipe isR refers))
    obtain ⟨handle, used⟩ := pipeOf_eq_some_iff.mp found
    have same : other = index := Fin.ext (by
      have equal := handle.symm.trans refers.2
      omega)
    subst same
    have counted := writers other used
    unfold pipeRead
    rw [found]
    dsimp only
    rw [if_neg positive.ne']
    by_cases empty : (system.pipes other).data = []
    · rw [if_pos empty]
      by_cases noWriter : (system.pipes other).writers = 0
      · rw [if_pos noWriter]
        exact iff_of_true rfl ⟨by omega, empty⟩
      · rw [if_neg noWriter]
        exact iff_of_false ReadResult.noConfusion fun ends =>
          noWriter (by omega)
    · rw [if_neg empty]
      refine iff_of_false (fun returns => ?_) fun ends => empty ends.2
      have nothing : (system.pipes other).data.take size = [] := ReadResult.returns.inj returns
      rcases List.take_eq_nil_iff.mp nothing with isZero | isEmpty
      · exact positive.ne' isZero
      · exact empty isEmpty

theorem Holds.step (holds : Holds system)
    {input : Fin taskMax × Call} (keeps : KeepsCounts system input) :
    Holds (step system input) := by
  obtain ⟨slot, call⟩ := input
  unfold Tasks.step
  split
  · rename_i live
    have balanced := holds.balanced
    cases call with
    | pipe copied =>
      exact holds.edits (Or.inl live) (kept_sysPipe slot balanced copied keeps)
    | dup2 oldfd newfd =>
      exact holds.edits (Or.inl live) (kept_sysDup2 slot balanced oldfd newfd)
    | dup fd => exact holds.edits (Or.inl live) (kept_vfsDup slot balanced fd)
    | close fd => exact holds.edits (Or.inl live) (balanced.taskFdClose slot fd)
    | read fd size =>
      dsimp only [perform]
      split
      · exact holds.edits (Or.inl live) (kept_pipeRead slot balanced _ _)
      · exact holds
    | write fd data =>
      dsimp only [perform]
      split
      · exact holds.edits (Or.inl live) (kept_pipeWrite slot balanced _ _)
      · exact holds
    | other type handle =>
      dsimp only [perform]
      split
      · exact holds
      · rename_i noPipe
        exact holds.edits (Or.inl live)
          (kept_taskFdAlloc slot balanced fun isPipe => noPipe (Or.inl isPipe))
    | create isUser granted => exact holds.taskCreate isUser granted
    | forkUser granted => exact holds.taskForkUser granted
    | fork granted => exact holds.taskFork live keeps granted
    | exec => exact holds
    | exit alone => exact holds.taskExit live keeps alone
  · exact holds

theorem holds_booted : Holds booted := by
  have noEntries : ∀ slot, NoPipes slot booted := fun _ _ => cleared_noPipe
  refine ⟨⟨?_, ?_, ?_⟩, fun slot _ => noEntries slot, ⟨?_, ?_, ?_, ?_⟩⟩
  · intro type _ index used
    cases used
  · intro place isPipe
    exact absurd isPipe cleared_noPipe
  · intro entry member
    exact absurd member List.not_mem_nil
  · intro slot _
    rfl
  · intro slot _ inUse
    by_contra notFirst
    exact inUse (if_neg notFirst)
  · intro slot
    exact Nat.zero_lt_one
  · have onlyFirst : ∀ slot, (booted.tasks slot).state ≠ .unused → slot = 0 := by
      intro slot inUse
      by_contra notFirst
      exact inUse (if_neg notFirst)
    intro slot other inUse otherInUse _
    exact (onlyFirst slot inUse).trans (onlyFirst other otherInUse).symm

/-- In every run whose calls all keep the counters, whatever the interleaving,
every state reached has its pipes counted. -/
theorem pipes_counted (inputs : List (Fin taskMax × Call))
    (keeps : AlongRun step KeepsCounts booted inputs) : PipesCounted (runFrom step booted inputs) :=
  (keeps.invariant (fun _ _ holds keeps => holds.step keeps) holds_booted).pipesCounted

/-- A user task makes a pipe and forks; the child closes the write end, the
parent duplicates the read end and exits. -/
theorem pipes_counted_forked : PipesCounted (runFrom step booted
      [(0, .create true true), (1, .pipe true), (1, .forkUser true),
        (2, .close 1), (1, .dup2 0 5), (2, .read 0 8), (1, .exit false)]) :=
  pipes_counted _ (by decide +kernel)

/-- A user task opens fifteen sockets and makes a pipe: one entry is left for the
two ends. -/
def crowdedCalls : List (Fin taskMax × Call) :=
  (0, .create true true) ::
    ((List.range 15).map fun (handle : Nat) => (1, .other .sock handle)) ++ [(1, .pipe true)]

/-- With one free entry left `SYS_PIPE` fails, and the pipe it made stays in
use with a reader and a writer counted: the entry for reading is there, one for
writing is not, so that a read never answers end of file. -/
theorem sysPipe_leaks :
    let full := runFrom step booted crowdedCalls
    ¬ PipesCounted full ∧
      (full.pipes 0).used = true ∧ (full.pipes 0).writers = 1 ∧
      liveHolders .pipeR 0 full = 1 ∧ liveHolders .pipeW 0 full = 0 ∧
      (full.pipes 0).data = [] ∧ (pipeRead 0 1 full).1 = .waits := by
  have facts : let full := runFrom step booted crowdedCalls
      (full.pipes 0).used = true ∧ (full.pipes 0).writers = 1 ∧
        liveHolders .pipeR 0 full = 1 ∧ liveHolders .pipeW 0 full = 0 ∧
        (full.pipes 0).data = [] ∧ (pipeRead 0 1 full).1 = .waits := by
    decide +kernel
  refine ⟨fun counted => ?_, facts⟩
  obtain ⟨used, one, _, none, _⟩ := facts
  have equal := counted.writers 0 used
  rw [one, none] at equal
  cases equal

end KnitOS.Tasks
