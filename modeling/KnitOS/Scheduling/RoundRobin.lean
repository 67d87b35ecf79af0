import KnitOS.Scheduling.Scheduler

/-!
# Round robin

A switch goes to the first ready task around from the current one.  The way
around to a task that waits gets shorter with every switch to another task, and
only the current task runs.
-/

namespace KnitOS.Scheduling

open Lib
open Tasks (TaskState taskMax ready_of_pickReady)

/-- The task is ready to run and not idle. -/
def Sched.Waits (sched : Sched) (slot : Fin taskMax) : Prop :=
  (sched.tasks slot).state = .ready ∧ (sched.tasks slot).isIdle = false

instance decidableWaits (sched : Sched) (slot : Fin taskMax) : Decidable (sched.Waits slot) :=
  inferInstanceAs (Decidable (_ ∧ _))

/-- The task that a step switches to. -/
def switched (sched : Sched) (event : Event) : Option (Fin taskMax) :=
  if (step sched event).current = sched.current then
    none
  else
    some (step sched event).current

/-- The tasks that a run switches to, in order. -/
def switches : Sched → List Event → List (Fin taskMax)
  | _, [] => []
  | sched, event :: rest =>
    (switched sched event).toList ++ switches (step sched event) rest

/-- No task runs beside the current one. -/
def Sched.Lone (sched : Sched) : Prop :=
  ∀ slot, (sched.tasks slot).state = .running → slot = sched.current

/-- The tasks that are ready stay so, and no task starts to run. -/
structure Keeps (sched reached : Sched) : Prop where
  current : reached.current = sched.current
  ready : ∀ slot, (sched.tasks slot).state = .ready → reached.tasks slot = sched.tasks slot
  running : ∀ slot, (reached.tasks slot).state = .running → (sched.tasks slot).state = .running

theorem keeps_schedWakeSleepers (sched : Sched) : Keeps sched (schedWakeSleepers sched) := by
  refine ⟨rfl, ?_, ?_⟩
  · intro slot ready
    simp [schedWakeSleepers, Task.WakesAt, ready]
  · intro slot
    simp only [schedWakeSleepers]
    split
    · simp [Task.woken]
    · exact id

/-- The current task is made ready before the next one is picked. -/
theorem keeps_readied (sched : Sched) :
    Keeps sched (exchangeState .running .ready (schedWakeSleepers sched)) := by
  obtain ⟨_, ready, running⟩ := keeps_schedWakeSleepers sched
  have current : (schedWakeSleepers sched).current = sched.current := rfl
  unfold exchangeState setState setTask
  rw [current]
  split
  · rename_i runs
    refine ⟨rfl, ?_, ?_⟩
    · intro slot isReady
      have away : slot ≠ sched.current := by
        intro same
        rw [← same, ready slot isReady, isReady] at runs
        cases runs
      simp [away, ready slot isReady]
    · intro slot
      by_cases here : slot = sched.current
      · simp [here]
      · simpa [here] using running slot
  · exact ⟨rfl, ready, running⟩

theorem state_readied (sched : Sched) :
    ((exchangeState .running .ready (schedWakeSleepers sched)).tasks
      sched.current).state ≠ .running := by
  unfold exchangeState setState setTask
  split
  · simp [schedWakeSleepers]
  · assumption

variable {sched reached : Sched}

theorem Sched.Lone.of_running (lone : sched.Lone)
    (current : reached.current = sched.current) (running : ∀ slot, slot ≠ sched.current →
      (reached.tasks slot).state = .running →
        (sched.tasks slot).state = .running) : reached.Lone := by
  intro slot runs
  by_contra away
  rw [current] at away
  exact away (lone slot (running slot away runs))

variable {slot : Fin taskMax}

theorem lone_setTask (lone : sched.Lone)
    {task : Task} (running : slot ≠ sched.current → task.state ≠ .running) :
    (setTask slot task sched).Lone := by
  refine lone.of_running rfl ?_
  intro other away runs
  by_cases here : other = slot
  · subst here
    exact absurd (by simpa [setTask] using runs) (running away)
  · simpa [setTask, here] using runs

theorem lone_exchangeState (lone : sched.Lone)
    (before after : TaskState) : (exchangeState before after sched).Lone := by
  unfold exchangeState setState
  split
  · exact lone_setTask lone fun away => absurd rfl away
  · exact lone

theorem current_exchangeState (before after : TaskState) (sched : Sched) :
    (exchangeState before after sched).current = sched.current := by
  unfold exchangeState
  split <;> rfl

variable {next : Fin taskMax}

/-- What is picked is the first task that waits, or is idle and no task
waits. -/
theorem schedPickNext_cases (isNext : schedPickNext sched = some next) : (sched.Waits next ∧
      ∃ offset, next = Fin.ofNat taskMax (sched.current.val + 1 + offset) ∧
        ∀ earlier < offset, ¬ sched.Waits (Fin.ofNat taskMax (sched.current.val + 1 + earlier))) ∨
    ((sched.tasks next).state = .ready ∧ ∀ slot, ¬ sched.Waits slot) := by
  rcases Option.or_eq_some_iff.mp isNext with waits | ⟨none, idle⟩
  · obtain ⟨offset, _, isOffset, before⟩ := nextIndex_least waits
    exact Or.inl ⟨meets_of_nextIndex waits, offset, isOffset, before⟩
  · have nobody := nextIndex_eq_none_iff.mp none
    exact Or.inr ⟨(meets_of_nextIndex idle).1, nobody⟩

/-- A switch: the next task is picked when the ready tasks are as before the
step and the current one does not run any more. -/
structure Switch (sched reached : Sched) (next : Fin taskMax) : Prop where
  pick : ∃ picked, Keeps sched picked ∧ (picked.tasks sched.current).state ≠ .running ∧
    schedPickNext picked = some next ∧ reached.tasks = Function.update picked.tasks next
      { picked.tasks next with state := .running }
  waiting : (sched.tasks sched.current).state ≠ .ready
  away : next ≠ sched.current
  current : reached.current = next

/-- What a step can do to the scheduler. -/
theorem step_cases (lone : sched.Lone) (event : Event) :
    ((step sched event).current = sched.current ∧ (step sched event).Lone) ∨
      Switch sched (step sched event) (step sched event).current := by
  have yielded : (sched.tasks sched.current).state = .running →
      ((schedYield sched).current = sched.current ∧ (schedYield sched).Lone) ∨
        Switch sched (schedYield sched) (schedYield sched).current := by
    intro runs
    have keeps := keeps_readied sched
    have stopped := state_readied sched
    have stays := lone_exchangeState
      (lone.of_running keeps.current fun slot _ => keeps.running slot) .ready .running
    have same := current_exchangeState .ready .running
      (exchangeState .running .ready (schedWakeSleepers sched))
    unfold schedYield
    generalize exchangeState .running .ready (schedWakeSleepers sched) = picked
      at keeps stopped stays same
    dsimp only
    split
    · exact Or.inl ⟨same.trans keeps.current, stays⟩
    · rename_i next isNext
      split
      · exact Or.inl ⟨same.trans keeps.current, stays⟩
      · rename_i away
        right
        rw [schedSwitchTo, if_neg (keeps.current ▸ away)]
        exact ⟨⟨picked, keeps, stopped, isNext, rfl⟩, by simp [runs], away, rfl⟩
  cases event with
  | yield =>
    simp only [step]
    split
    · rename_i runs
      exact yielded runs
    · exact Or.inl ⟨rfl, lone⟩
  | sleep ms =>
    simp only [step, taskSleepMs]
    split
    · rename_i runs
      split
      · exact yielded runs
      · unfold taskBlockTimeout
        split
        · exact Or.inl ⟨rfl, lone⟩
        · exact Or.inl ⟨rfl, lone_setTask lone fun away => absurd rfl away⟩
    · exact Or.inl ⟨rfl, lone⟩
  | block reason deadline =>
    simp only [step, taskBlockTimeout]
    split
    · split
      · exact Or.inl ⟨rfl, lone⟩
      · exact Or.inl ⟨rfl, lone_setTask lone fun away => absurd rfl away⟩
    · exact Or.inl ⟨rfl, lone⟩
  | round =>
    simp only [step, blockRound]
    split
    · exact Or.inl ⟨rfl, lone⟩
    · split
      · rename_i stopped blocked
        split
        · rename_i next isNext
          have ready : next ≠ sched.current := by
            intro same
            have isReady := ready_of_pickReady isNext
            rw [same, blocked] at isReady
            cases isReady
          right
          rw [schedSwitchTo, if_neg ready]
          exact ⟨⟨sched, ⟨rfl, fun _ _ => rfl, fun _ => id⟩, stopped, isNext,
            rfl⟩, by simp [blocked], ready, rfl⟩
        · exact Or.inl ⟨rfl, lone.of_running rfl fun slot _ =>
            (keeps_schedWakeSleepers sched).running slot⟩
      · refine Or.inl ⟨current_exchangeState _ _ _, ?_⟩
        refine lone_setTask (lone_exchangeState lone _ _) ?_
        rw [current_exchangeState]
        exact fun away => absurd rfl away
  | create =>
    simp only [step, taskCreate]
    split
    · split
      · exact Or.inl ⟨rfl, lone⟩
      · exact Or.inl ⟨rfl, lone_setTask lone fun _ => nofun⟩
    · exact Or.inl ⟨rfl, lone⟩
  | setIdle slot =>
    simp only [step, taskSetIdle]
    split
    · exact Or.inl ⟨rfl, lone_setTask lone fun away runs =>
        away (lone slot runs)⟩
    · exact Or.inl ⟨rfl, lone⟩
  | tick =>
    exact Or.inl ⟨rfl, lone.of_running rfl fun slot _ =>
      (keeps_schedWakeSleepers _).running slot⟩
  | wakeNet =>
    refine Or.inl ⟨rfl, lone.of_running rfl fun slot _ => ?_⟩
    simp only [step, schedWakeNet]
    split
    · simp [Task.woken]
    · exact id

/-- After a switch the next task runs alone, and if it is idle then no other
task waits. -/
theorem Switch.alone (lone : sched.Lone) (switch : Switch sched reached next) :
    (∀ slot, (reached.tasks slot).state = .running ↔ slot = next) ∧
      ((reached.tasks next).isIdle = true → ∀ slot, ¬ reached.Waits slot) := by
  obtain ⟨picked, keeps, stopped, isNext, tasks⟩ := switch.pick
  constructor
  · intro slot
    by_cases here : slot = next
    · simp [tasks, here]
    · simp only [tasks, ne_eq, here, not_false_eq_true, Function.update_of_ne, iff_false]
      intro runs
      rw [lone slot (keeps.running slot runs)] at runs
      exact stopped runs
  · intro isIdle slot waits
    rw [tasks, Function.update_self] at isIdle
    rcases schedPickNext_cases isNext with ⟨nextWaits, _⟩ | ⟨_, none⟩
    · rw [nextWaits.2] at isIdle
      cases isIdle
    · unfold Sched.Waits at waits none
      by_cases here : slot = next
      · simp [tasks, here] at waits
      · exact none slot (by simpa [tasks, here] using waits)

/-- The number of tasks between two tasks, around the table. -/
def around (first second : Fin taskMax) : Nat :=
  (second.val + taskMax - first.val - 1) % taskMax

/-- A switch goes to the task that waits or gets nearer to it. -/
theorem Switch.nearer (switch : Switch sched reached next) (waits : sched.Waits slot) :
    around sched.current slot < taskMax - 1 ∧
      (next = slot ∨ around next slot < around sched.current slot) := by
  obtain ⟨picked, keeps, _, isNext, _⟩ := switch.pick
  have away : slot ≠ sched.current := by
    intro same
    exact switch.waiting (same ▸ waits.1)
  have stillWaits : picked.Waits slot := by
    unfold Sched.Waits
    rw [keeps.ready slot waits.1]
    exact waits
  rcases schedPickNext_cases isNext with
    ⟨_, offset, isOffset, before⟩ | ⟨_, none⟩
  · rw [keeps.current] at isOffset before
    have reaches : Fin.ofNat taskMax (sched.current.val + 1 +
        around sched.current slot) = slot := by
      apply Fin.ext
      simp only [around, Fin.val_ofNat, taskMax] at *
      omega
    have near : offset ≤ around sched.current slot := by
      by_contra far
      apply before _ (Nat.lt_of_not_le far)
      rw [reaches]
      exact stillWaits
    have value := congrArg Fin.val isOffset
    simp only [Fin.val_ofNat] at value
    constructor
    · simp only [around, taskMax] at *
      omega
    · by_cases isSlot : next = slot
      · exact Or.inl isSlot
      · right
        have different : next.val ≠ slot.val := fun same =>
          isSlot (Fin.ext same)
        simp only [around, taskMax] at *
        omega
  · exact absurd stillWaits (none slot)

theorem lone_run (events : List Event) : (runFrom step schedInit events).Lone := by
  refine runFrom_invariant ?_ ?_ events
  · intro sched event lone
    rcases step_cases lone event with ⟨_, stays⟩ | switch
    · exact stays
    · intro slot runs
      exact ((switch.alone lone).1 slot).mp runs
  · intro slot runs
    by_contra away
    have unused : (schedInit.tasks slot).state = .unused := if_neg away
    rw [unused] at runs
    cases runs

/-- A task that stays ready is among the next tasks that are switched to. -/
theorem mem_switches (events : List Event) : ∀ {sched : Sched}, sched.Lone →
    AlongRun step (fun sched _ => sched.Waits slot) sched events →
      min (around sched.current slot) (taskMax - 2) < (switches sched events).length →
      slot ∈ (switches sched events).take (min (around sched.current slot) (taskMax - 2) + 1) := by
  induction events with
  | nil =>
    intro sched _ _ long
    cases long
  | cons event rest ih =>
    intro sched lone ⟨waits, later⟩ long
    rcases step_cases lone event with ⟨same, stays⟩ | switch
    · have none : switched sched event = none := if_pos same
      simp only [switches, none, Option.toList_none, List.nil_append] at long ⊢
      rw [← same] at long ⊢
      exact ih stays later long
    · have some : switched sched event = some (step sched event).current := if_neg switch.away
      have stays : (step sched event).Lone := fun slot runs =>
        ((switch.alone lone).1 slot).mp runs
      obtain ⟨near, isNext | nearer⟩ := switch.nearer waits
      · simp [switches, some, isNext]
      · simp only [switches, some, Option.toList_some, List.cons_append,
          List.nil_append, List.length_cons, List.take_succ_cons, List.mem_cons] at long ⊢
        right
        refine List.Sublist.mem (ih stays later ?_) (List.take_sublist_take_left ?_)
        · omega
        · omega

end KnitOS.Scheduling
