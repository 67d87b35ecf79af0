import KnitOS.Tasks.Descriptors

/-!
# Pipe counters

The counters of a pipe are compared with the descriptor entries that refer to
it.  References taken or returned in the middle of a call are counted beside
the table.
-/

namespace KnitOS.Tasks

open Lib Function

/-- The entry refers to an end of a pipe. -/
def TaskFd.Refers (type : FdType) (index : Fin kpipeMax) (entry : TaskFd) : Prop :=
  entry.type = type ∧ entry.handle = index.val

instance decidableRefers (type : FdType) (index : Fin kpipeMax) :
    DecidablePred (TaskFd.Refers type index) := fun _ =>
  inferInstanceAs (Decidable (_ ∧ _))

/-- All descriptor tables as one. -/
def entries (system : System) : Fin taskMax × Fin taskFdMax → TaskFd :=
  fun place => (system.tasks place.1).fds place.2

/-- The number of entries that refer to an end of a pipe. -/
def holders (type : FdType) (index : Fin kpipeMax) (system : System) : Nat :=
  tally (TaskFd.Refers type index) (entries system)

/-- The counter that a pipe has for the entries of a type. -/
def counter (type : FdType) (pipe : Kpipe) : Int :=
  match type with
  | .pipeR => pipe.readers
  | .pipeW => pipe.writers
  | _ => 0

/-- The counters agree with the entries and the references beside them, and
each of these refers to a pipe in use. -/
structure Balanced (extra : List TaskFd) (system : System) : Prop where
  counts : ∀ type : FdType, type.IsPipe → ∀ index, (system.pipes index).used = true →
      counter type (system.pipes index) =
        holders type index system + extra.countP (·.Refers type index)
  backed : ∀ place, (entries system place).type.IsPipe →
    (pipeOf (entries system place).handle system).isSome
  backedExtra : ∀ entry ∈ extra, entry.type.IsPipe → (pipeOf entry.handle system).isSome

variable {system : System} {index : Fin kpipeMax} {handle : Int}

theorem pipeOf_eq_some_iff : pipeOf handle system = some index ↔
    handle = index.val ∧ (system.pipes index).used = true := by
  unfold pipeOf indexOf
  rw [Option.filter_eq_some_iff]
  constructor
  · rintro ⟨found, used⟩
    split at found
    · rename_i inside
      have same := congrArg Fin.val (Option.some.inj found)
      simp only at same
      exact ⟨by omega, used⟩
    · cases found
  · rintro ⟨isHandle, used⟩
    have inside : 0 ≤ handle ∧ handle < (kpipeMax : Int) := by
      omega
    refine ⟨?_, used⟩
    rw [dif_pos inside]
    congr 1
    apply Fin.ext
    simp only
    omega

theorem isSome_pipeOf_iff : (pipeOf handle system).isSome ↔ ∃ index : Fin kpipeMax,
    handle = index.val ∧ (system.pipes index).used = true := by
  rw [Option.isSome_iff_exists]
  exact exists_congr fun _ => pipeOf_eq_some_iff

theorem entries_setFd (slot : Fin taskMax) (fd : Fin taskFdMax) (entry : TaskFd) (system : System) :
    entries (setFd slot fd entry system) = update (entries system) (slot, fd) entry := by
  funext place
  obtain ⟨otherSlot, otherFd⟩ := place
  by_cases sameSlot : otherSlot = slot
  · subst sameSlot
    by_cases sameFd : otherFd = fd
    · subst sameFd
      simp [entries, setFd]
    · have other : (otherSlot, otherFd) ≠ (otherSlot, fd) := fun same =>
        sameFd (Prod.mk.inj same).2
      rw [update_of_ne other]
      simp [entries, setFd, sameFd]
  · have other : (otherSlot, otherFd) ≠ (slot, fd) := fun same =>
      sameSlot (Prod.mk.inj same).1
    rw [update_of_ne other]
    simp [entries, setFd, sameSlot]

@[simp]
theorem pipes_setFd (slot : Fin taskMax) (fd : Fin taskFdMax) (entry : TaskFd) (system : System) :
    (setFd slot fd entry system).pipes = system.pipes := rfl

theorem pipeOf_congr {first second : System} (same : second.pipes = first.pipes) (handle : Int) :
    pipeOf handle second = pipeOf handle first := by
  unfold pipeOf
  rw [same]

variable {entry : TaskFd}

theorem refers_isPipe {type : FdType} (isPipe : type.IsPipe) (refers : entry.Refers type index) :
    entry.type.IsPipe := by
  rw [refers.1]
  exact isPipe

theorem holders_setFd (type : FdType) (index : Fin kpipeMax)
    (slot : Fin taskMax) (fd : Fin taskFdMax) (entry : TaskFd) (system : System) :
    holders type index (setFd slot fd entry system) +
        (if (entries system (slot, fd)).Refers type index then 1 else 0) =
      holders type index system + (if entry.Refers type index then 1 else 0) := by
  unfold holders
  rw [entries_setFd]
  exact tally_update _ _ _

theorem countP_cons_refers (type : FdType) (index : Fin kpipeMax)
    (entry : TaskFd) (extra : List TaskFd) : (entry :: extra).countP (·.Refers type index) =
      extra.countP (·.Refers type index) + (if entry.Refers type index then 1 else 0) := by
  rw [List.countP_cons]
  simp

namespace Balanced

variable {extra : List TaskFd} {system : System} {entry : TaskFd}

theorem swap (balanced : Balanced (entry :: extra) system)
    (slot : Fin taskMax) (fd : Fin taskFdMax) : Balanced (entries system (slot, fd) :: extra)
      (setFd slot fd entry system) := by
  refine ⟨?_, ?_, ?_⟩
  · intro type isPipe index used
    have counted := balanced.counts type isPipe index used
    have written := holders_setFd type index slot fd entry system
    rw [countP_cons_refers] at counted ⊢
    rw [pipes_setFd, counted]
    omega
  · intro place isPipe
    rw [entries_setFd] at isPipe ⊢
    by_cases here : place = (slot, fd)
    · rw [here, update_self] at isPipe ⊢
      exact balanced.backedExtra entry List.mem_cons_self isPipe
    · rw [update_of_ne here] at isPipe ⊢
      exact balanced.backed place isPipe
  · exact List.forall_mem_cons.mpr ⟨balanced.backed (slot, fd),
      (List.forall_mem_cons.mp balanced.backedExtra).2⟩

theorem cons_iff (noPipe : ¬ entry.type.IsPipe) :
    Balanced (entry :: extra) system ↔ Balanced extra system := by
  have notCounted : ∀ type : FdType, type.IsPipe → ∀ index,
      (entry :: extra).countP (·.Refers type index) = extra.countP (·.Refers type index) := by
    intro type isPipe index
    rw [countP_cons_refers, if_neg fun refers => noPipe (refers_isPipe isPipe refers), Nat.add_zero]
  constructor
  · intro balanced
    refine ⟨?_, balanced.backed, (List.forall_mem_cons.mp balanced.backedExtra).2⟩
    intro type isPipe index used
    rw [← notCounted type isPipe index]
    exact balanced.counts type isPipe index used
  · intro balanced
    refine ⟨?_, balanced.backed, ?_⟩
    · intro type isPipe index used
      rw [notCounted type isPipe index]
      exact balanced.counts type isPipe index used
    · exact List.forall_mem_cons.mpr ⟨fun isPipe => absurd isPipe noPipe, balanced.backedExtra⟩

theorem put (balanced : Balanced (entry :: extra) system)
    {slot : Fin taskMax} {fd : Fin taskFdMax} (noPipe : ¬ (entries system (slot, fd)).type.IsPipe) :
    Balanced extra (setFd slot fd entry system) := (cons_iff noPipe).mp (balanced.swap slot fd)

theorem take (balanced : Balanced extra system) (slot : Fin taskMax)
    (fd : Fin taskFdMax) (noPipe : ¬ entry.type.IsPipe) :
    Balanced (entries system (slot, fd) :: extra) (setFd slot fd entry system) :=
  ((cons_iff noPipe).mpr balanced).swap slot fd

end Balanced

@[simp]
theorem holders_setPipe (type : FdType) (other index : Fin kpipeMax)
    (pipe : Kpipe) (system : System) : holders type other (setPipe index pipe system) =
      holders type other system := rfl

theorem refers_iff_of_pipeOf (found : pipeOf entry.handle system = some index)
    (type : FdType) : entry.Refers type index ↔ entry.type = type :=
  and_iff_left (pipeOf_eq_some_iff.mp found).1

theorem refEntry_eq (isPipe : entry.type.IsPipe) (found : pipeOf entry.handle system = some index) :
    ∃ pipe, refEntry entry system = setPipe index pipe system ∧
      pipe.used = (system.pipes index).used ∧ ∀ type : FdType, type.IsPipe →
        counter type pipe = counter type (system.pipes index) +
          (if entry.Refers type index then 1 else 0) := by
  have refers := refers_iff_of_pipeOf found
  unfold refEntry pipeRef
  rw [found]
  rcases isPipe with isR | isW
  · simp only [isR] at refers ⊢
    refine ⟨_, rfl, rfl, ?_⟩
    rintro type (rfl | rfl)
    · simp [refers, counter]
    · simp [refers, counter]
  · simp only [isW] at refers ⊢
    refine ⟨_, rfl, rfl, ?_⟩
    rintro type (rfl | rfl)
    · simp [refers, counter]
    · simp [refers, counter]

/-- `pipe_close` through an entry whose counter is not zero: the counter goes
down by one, and the pipe is free when both are zero. -/
theorem releaseEntry_eq (isPipe : entry.type.IsPipe)
    (found : pipeOf entry.handle system = some index)
    (positive : 0 < counter entry.type (system.pipes index)) :
    ∃ pipe, releaseEntry entry system = setPipe index pipe system ∧
      (pipe.used = true ↔ ¬ (pipe.readers = 0 ∧ pipe.writers = 0)) ∧ ∀ type : FdType, type.IsPipe →
        counter type pipe = counter type (system.pipes index) -
          (if entry.Refers type index then 1 else 0) := by
  have used := (pipeOf_eq_some_iff.mp found).2
  have refers := refers_iff_of_pipeOf found
  unfold releaseEntry pipeClose
  rw [found]
  rcases isPipe with isR | isW
  · simp only [isR] at refers positive ⊢
    have some : 0 < (system.pipes index).readers := positive
    refine ⟨_, rfl, ?_, ?_⟩
    · simp only [Bool.false_eq_true, if_false, if_pos some]
      split
      · rename_i empty
        simp [empty]
      · rename_i held
        simp [held, used]
    · rintro type (rfl | rfl)
      · simp only [Bool.false_eq_true, if_false, if_pos some]
        split
        · simp [refers, counter]
        · simp [refers, counter]
      · simp only [Bool.false_eq_true, if_false, if_pos some]
        split
        · simp [refers, counter]
        · simp [refers, counter]
  · simp only [isW] at refers positive ⊢
    have some : 0 < (system.pipes index).writers := positive
    refine ⟨_, rfl, ?_, ?_⟩
    · simp only [if_true, if_pos some]
      split
      · rename_i empty
        simp [empty]
      · rename_i held
        simp [held, used]
    · rintro type (rfl | rfl)
      · simp only [if_true, if_pos some]
        split
        · simp [refers, counter]
        · simp [refers, counter]
      · simp only [if_true, if_pos some]
        split
        · simp [refers, counter]
        · simp [refers, counter]

theorem isSome_pipeOf_setPipe {pipe : Kpipe} (before : (pipeOf handle system).isSome)
    (used : handle = index.val → pipe.used = true) :
    (pipeOf handle (setPipe index pipe system)).isSome := by
  obtain ⟨other, isOther, otherUsed⟩ := isSome_pipeOf_iff.mp before
  refine isSome_pipeOf_iff.mpr ⟨other, isOther, ?_⟩
  by_cases same : other = index
  · subst same
    simp only [setPipe, update_self]
    exact used isOther
  · simp only [setPipe, update_of_ne same]
    exact otherUsed

theorem refEntry_of_not_pipe (noPipe : ¬ entry.type.IsPipe)
    (system : System) : refEntry entry system = system := by
  unfold refEntry
  split
  · rename_i isR
    exact absurd (Or.inl isR) noPipe
  · rename_i isW
    exact absurd (Or.inr isW) noPipe
  · rfl

theorem pipeClose_tasks (handle : Int) (writeEnd : Bool) (system : System) :
    (pipeClose handle writeEnd system).tasks = system.tasks ∧
      (pipeClose handle writeEnd system).nextId = system.nextId := by
  unfold pipeClose
  split
  · exact ⟨rfl, rfl⟩
  · exact ⟨rfl, rfl⟩

theorem releaseEntry_tasks (entry : TaskFd) (system : System) :
    (releaseEntry entry system).tasks = system.tasks ∧
      (releaseEntry entry system).nextId = system.nextId := by
  unfold releaseEntry fsOfileRelease
  split
  · split
    · split
      · exact ⟨rfl, rfl⟩
      · exact ⟨rfl, rfl⟩
    · exact ⟨rfl, rfl⟩
  · exact pipeClose_tasks _ _ _
  · exact pipeClose_tasks _ _ _
  · exact ⟨rfl, rfl⟩

theorem refEntry_tasks (entry : TaskFd) (system : System) :
    (refEntry entry system).tasks = system.tasks ∧
      (refEntry entry system).nextId = system.nextId := by
  unfold refEntry pipeRef
  split
  · split
    · exact ⟨rfl, rfl⟩
    · exact ⟨rfl, rfl⟩
  · split
    · exact ⟨rfl, rfl⟩
    · exact ⟨rfl, rfl⟩
  · exact ⟨rfl, rfl⟩

theorem releaseEntry_of_not_pipe (noPipe : ¬ entry.type.IsPipe) (system : System) :
    (releaseEntry entry system).pipes = system.pipes := by
  unfold releaseEntry fsOfileRelease
  split
  · split
    · split
      · rfl
      · rfl
    · rfl
  · rename_i isR
    exact absurd (Or.inl isR) noPipe
  · rename_i isW
    exact absurd (Or.inr isW) noPipe
  · rfl

namespace Balanced

variable {extra : List TaskFd} {system : System}

theorem congr {reached : System} (balanced : Balanced extra system)
    (tasks : reached.tasks = system.tasks)
    (pipes : reached.pipes = system.pipes) : Balanced extra reached := by
  have sameEntries : entries reached = entries system := by
    unfold entries
    rw [tasks]
  refine ⟨?_, ?_, ?_⟩
  · intro type isPipe index used
    rw [pipes] at used ⊢
    rw [holders, sameEntries]
    exact balanced.counts type isPipe index used
  · intro place isPipe
    rw [sameEntries] at isPipe ⊢
    rw [pipeOf_congr pipes]
    exact balanced.backed place isPipe
  · intro entry member isPipe
    rw [pipeOf_congr pipes]
    exact balanced.backedExtra entry member isPipe

theorem nothing_refers (balanced : Balanced extra system) {index : Fin kpipeMax} {type : FdType}
    (unused : (system.pipes index).used = false) (typeIsPipe : type.IsPipe) :
    holders type index system = 0 ∧ extra.countP (·.Refers type index) = 0 := by
  have notBacked : ∀ entry : TaskFd, entry.Refers type index →
      ¬ (pipeOf entry.handle system).isSome := by
    intro entry refers backed
    obtain ⟨other, isOther, used⟩ := isSome_pipeOf_iff.mp backed
    have same : other = index := Fin.ext (by have handle := refers.2; omega)
    rw [same, unused] at used
    cases used
  refine ⟨tally_eq_zero_iff.mpr fun place refers => ?_,
    List.countP_eq_zero.mpr fun entry member isReference => ?_⟩
  · exact notBacked _ refers (balanced.backed place (refers_isPipe typeIsPipe refers))
  · have refers := of_decide_eq_true isReference
    exact notBacked entry refers
      (balanced.backedExtra entry member (refers_isPipe typeIsPipe refers))

/-- One pipe is written and the references to it beside the table change. -/
theorem writePipe (balanced : Balanced extra system) {index : Fin kpipeMax} {pipe : Kpipe}
    {extra' : List TaskFd} (others : extra'.filter (·.handle ≠ (index.val : Int)) =
      extra.filter (·.handle ≠ (index.val : Int)))
    (counted : ∀ type : FdType, type.IsPipe → pipe.used = true → counter type pipe =
      holders type index system + extra'.countP (·.Refers type index))
    (held : ∀ type : FdType, type.IsPipe →
      0 < holders type index system + extra'.countP (·.Refers type index) → pipe.used = true) :
    Balanced extra' (setPipe index pipe system) := by
  refine ⟨?_, ?_, ?_⟩
  · intro type typeIsPipe other otherUsed
    rw [holders_setPipe]
    by_cases same : other = index
    · subst same
      simp only [setPipe, update_self] at otherUsed ⊢
      exact counted type typeIsPipe otherUsed
    · have elsewhere : ∀ entries : List TaskFd, entries.countP (·.Refers type other) =
          (entries.filter (·.handle ≠ (index.val : Int))).countP (·.Refers type other) := by
        intro entries
        rw [List.countP_filter]
        refine List.countP_congr fun entry _ => ?_
        rw [Bool.and_eq_true, decide_eq_true_eq, decide_eq_true_eq, iff_self_and]
        intro refers here
        exact same (Fin.ext (by have handle := refers.2; omega))
      simp only [setPipe, update_of_ne same] at otherUsed ⊢
      rw [elsewhere, others, ← elsewhere]
      exact balanced.counts type typeIsPipe other otherUsed
  · intro place placeIsPipe
    refine isSome_pipeOf_setPipe (balanced.backed place placeIsPipe) fun here => ?_
    exact held _ placeIsPipe (Nat.add_pos_left (tally_pos ⟨rfl, here⟩) _)
  · intro entry member entryIsPipe
    by_cases here : entry.handle = index.val
    · have used := held _ entryIsPipe (Nat.add_pos_right _
        (List.countP_pos_iff.mpr ⟨entry, member, decide_eq_true ⟨rfl, here⟩⟩))
      exact isSome_pipeOf_iff.mpr ⟨index, here, by simp [setPipe, used]⟩
    · have inOthers : entry ∈ extra'.filter (·.handle ≠ (index.val : Int)) :=
        List.mem_filter.mpr ⟨member, decide_eq_true here⟩
      rw [others] at inOthers
      exact isSome_pipeOf_setPipe (balanced.backedExtra entry (List.mem_filter.mp inOthers).1
        entryIsPipe) fun same => absurd same here

theorem ref {entry : TaskFd} (balanced : Balanced extra system)
    (inUse : entry.type.IsPipe → (pipeOf entry.handle system).isSome) :
    Balanced (entry :: extra) (refEntry entry system) := by
  by_cases isPipe : entry.type.IsPipe
  · obtain ⟨index, found⟩ := Option.isSome_iff_exists.mp (inUse isPipe)
    obtain ⟨pipe, written, used, counters⟩ := refEntry_eq isPipe found
    obtain ⟨handle, wasUsed⟩ := pipeOf_eq_some_iff.mp found
    rw [written]
    refine balanced.writePipe (by simp [handle]) ?_ fun _ _ _ => used.trans wasUsed
    intro type typeIsPipe _
    have counted := balanced.counts type typeIsPipe index wasUsed
    rw [countP_cons_refers, counters type typeIsPipe, counted]
    split
    · omega
    · omega
  · rw [refEntry_of_not_pipe isPipe]
    exact (cons_iff isPipe).mpr balanced

theorem release {entry : TaskFd} (balanced : Balanced (entry :: extra) system) :
    Balanced extra (releaseEntry entry system) := by
  by_cases isPipe : entry.type.IsPipe
  · obtain ⟨index, found⟩ := Option.isSome_iff_exists.mp
      (balanced.backedExtra entry List.mem_cons_self isPipe)
    obtain ⟨handle, wasUsed⟩ := pipeOf_eq_some_iff.mp found
    have own : entry.Refers entry.type index := ⟨rfl, handle⟩
    have countedOwn := balanced.counts entry.type isPipe index wasUsed
    rw [countP_cons_refers, if_pos own] at countedOwn
    obtain ⟨pipe, written, used, counters⟩ := releaseEntry_eq isPipe found (by omega)
    have countedHere : ∀ type : FdType, type.IsPipe → counter type pipe =
        holders type index system + extra.countP (·.Refers type index) := by
      intro type typeIsPipe
      have counted := balanced.counts type typeIsPipe index wasUsed
      rw [countP_cons_refers] at counted
      rw [counters type typeIsPipe, counted]
      split
      · omega
      · omega
    rw [written]
    refine balanced.writePipe (by simp [handle]) (fun type isEnd _ => countedHere type isEnd) ?_
    -- a pipe that something still refers to is not free
    intro type typeIsPipe held
    refine used.mpr fun empty => ?_
    have counted := countedHere type typeIsPipe
    have zero : counter type pipe = 0 := by
      rcases typeIsPipe with rfl | rfl
      · exact empty.1
      · exact empty.2
    omega
  · exact ((cons_iff isPipe).mp balanced).congr (releaseEntry_tasks entry system).1
      (releaseEntry_of_not_pipe isPipe system)

theorem create (balanced : Balanced extra system) {index : Fin kpipeMax}
    (unused : (system.pipes index).used = false) :
    Balanced (⟨.pipeR, index.val⟩ :: ⟨.pipeW, index.val⟩ :: extra)
      (setPipe index { used := true, data := [], readers := 1, writers := 1 } system) := by
  refine balanced.writePipe (by simp) ?_ fun _ _ _ => rfl
  intro type typeIsPipe _
  obtain ⟨noHolder, noExtra⟩ := balanced.nothing_refers unused typeIsPipe
  rw [countP_cons_refers, countP_cons_refers, noHolder, noExtra]
  rcases typeIsPipe with rfl | rfl
  · simp [counter, TaskFd.Refers]
  · simp [counter, TaskFd.Refers]

end Balanced

end KnitOS.Tasks
