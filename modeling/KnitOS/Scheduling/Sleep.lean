import KnitOS.Scheduling.RoundRobin

/-!
# Sleeping

Deadlines are compared by the sign of a 32-bit difference, and the deadline 0,
which means none, is replaced by 1.
-/

namespace KnitOS.Scheduling

open Lib
open Tasks (TaskState taskMax ready_of_pickReady)

def Sched.Blocked (sched : Sched) (slot : Fin taskMax) : Prop :=
  (sched.tasks slot).state = .blocked

/-- The step calls `sched_wake_sleepers`. -/
def CallsWake (sched : Sched) (event : Event) : Prop :=
  let runs := (sched.tasks sched.current).state = .running
  match event with
  | .tick => True
  | .yield => runs
  | .sleep ms => runs ∧ ms = 0
  | .round => sched.Blocked sched.current ∧ schedPickNext sched = none
  | _ => False

/-- The time since a tick, without wrap-around. -/
def elapsedMs (start : Nat) (sched : Sched) : Nat :=
  10 * (sched.jiffies - start)

/-- The task that calls `task_sleep_ms` is blocked until the time has elapsed,
and the first call of `sched_wake_sleepers` from then on wakes it.  A sleep of
0 ms is a yield. -/
def SleepsFull (sched : Sched) (ms : UInt32) : Prop :=
  ms = 0 ∨
    (step sched (.sleep ms)).Blocked sched.current ∧
    ∀ events event,
      AlongRun step (fun before _ => before.Blocked sched.current)
        (step sched (.sleep ms)) (events ++ [event]) →
      let before := runFrom step (step sched (.sleep ms)) events
      let reached := step before event
      (¬ reached.Blocked sched.current →
        ms.toNat ≤ elapsedMs sched.jiffies reached) ∧
      (CallsWake before event → ms.toNat ≤ elapsedMs sched.jiffies reached →
        ¬ reached.Blocked sched.current)

/-- The task sleeps with a wake-up time. -/
structure Asleep (sched : Sched) (slot : Fin taskMax) (wake : Nat) : Prop where
  blocked : sched.Blocked slot
  wakeMs : (sched.tasks slot).wakeMs = wake
  reason : (sched.tasks slot).waitReason = .sleep

namespace Asleep

variable {sched : Sched} {slot : Fin taskMax} {wake : Nat} (asleep : Asleep sched slot wake)
include asleep

theorem wakesAt_iff (positive : wake ≠ 0)
    (now : Nat) : (sched.tasks slot).WakesAt now ↔ due now wake := by
  unfold Task.WakesAt
  rw [asleep.wakeMs]
  exact ⟨fun wakes => wakes.2.2, fun isDue => ⟨asleep.blocked, positive, isDue⟩⟩

theorem of_tasks {reached : Sched} (state : (reached.tasks slot).state = (sched.tasks slot).state)
    (wakeMs : (reached.tasks slot).wakeMs = (sched.tasks slot).wakeMs)
    (reason : (reached.tasks slot).waitReason = (sched.tasks slot).waitReason) :
    Asleep reached slot wake := ⟨state.trans asleep.blocked, wakeMs.trans asleep.wakeMs,
    reason.trans asleep.reason⟩

theorem of_same {reached : Sched}
    (same : reached.tasks slot = sched.tasks slot) : Asleep reached slot wake := by
  apply asleep.of_tasks <;> rw [same]

theorem ne_current
    (runs : (sched.tasks sched.current).state = .running) : slot ≠ sched.current := by
  intro same
  have blocked := asleep.blocked
  rw [Sched.Blocked, same, runs] at blocked
  cases blocked

/-- What a call of `sched_wake_sleepers` does to the task. -/
theorem schedWakeSleepers_cases (positive : wake ≠ 0) :
    (due (timerMs sched.jiffies) wake ∧ ((schedWakeSleepers sched).tasks slot).state = .ready) ∨
    (¬ due (timerMs sched.jiffies) wake ∧ Asleep (schedWakeSleepers sched) slot wake) := by
  have wakesIff := asleep.wakesAt_iff positive (timerMs sched.jiffies)
  by_cases isDue : due (timerMs sched.jiffies) wake
  · exact Or.inl ⟨isDue, by simp [schedWakeSleepers, wakesIff, isDue, Task.woken]⟩
  · exact Or.inr ⟨isDue, asleep.of_same (by simp [schedWakeSleepers, wakesIff, isDue])⟩

end Asleep

variable {slot : Fin taskMax} {sched : Sched}

theorem exchangeState_tasks (away : slot ≠ sched.current) (before after : TaskState) :
    (exchangeState before after sched).tasks slot = sched.tasks slot := by
  unfold exchangeState setState setTask
  split <;> simp [away]

@[simp] theorem jiffies_exchangeState (before after : TaskState) (sched : Sched) :
    (exchangeState before after sched).jiffies = sched.jiffies := by
  unfold exchangeState
  split <;> rfl

@[simp] theorem jiffies_schedSwitchTo (next : Fin taskMax) (sched : Sched) :
    (schedSwitchTo next sched).jiffies = sched.jiffies := by
  unfold schedSwitchTo
  split <;> rfl

@[simp] theorem jiffies_schedYield (sched : Sched) :
    (schedYield sched).jiffies = sched.jiffies := by
  unfold schedYield
  dsimp only
  split
  · simp [schedWakeSleepers]
  · split <;> simp [schedWakeSleepers]

/-- A switch changes only a task that is ready. -/
theorem schedSwitchTo_tasks {sched : Sched} {slot next : Fin taskMax}
    (isNext : schedPickNext sched = some next) :
    (schedSwitchTo next sched).tasks slot = sched.tasks slot ∨ (sched.tasks slot).state = .ready ∧
        ((schedSwitchTo next sched).tasks slot).state = .running := by
  have ready := ready_of_pickReady isNext
  unfold schedSwitchTo setState setTask
  split
  · exact Or.inl rfl
  · by_cases here : slot = next
    · subst here
      exact Or.inr ⟨ready, by simp⟩
    · exact Or.inl (by simp [here])

/-- A yield of another task wakes the sleeping tasks, and may switch to one. -/
theorem schedYield_tasks (away : slot ≠ sched.current) :
    (schedYield sched).tasks slot = (schedWakeSleepers sched).tasks slot ∨
      ((schedWakeSleepers sched).tasks slot).state = .ready ∧
        ((schedYield sched).tasks slot).state = .running := by
  have readied := exchangeState_tasks
    (show slot ≠ (schedWakeSleepers sched).current from away) .running .ready
  have kept := exchangeState_tasks (show slot ≠
    (exchangeState .running .ready (schedWakeSleepers sched)).current by
      rw [current_exchangeState]; exact away) .ready .running
  unfold schedYield
  dsimp only
  split
  · exact Or.inl (kept.trans readied)
  · rename_i next isNext
    split
    · exact Or.inl (kept.trans readied)
    · have changed := @schedSwitchTo_tasks _ slot _ isNext
      rwa [readied] at changed

/-- A sleeping task changes only when `sched_wake_sleepers` is called at its
time. -/
def WakesOrSleeps (calls : Prop) (slot : Fin taskMax) (wake : Nat) (reached : Sched) : Prop :=
  (calls ∧ due (timerMs reached.jiffies) wake ∧ ¬ reached.Blocked slot) ∨
    (¬ (calls ∧ due (timerMs reached.jiffies) wake) ∧ Asleep reached slot wake)

namespace Asleep

variable {sched : Sched} {slot : Fin taskMax} {wake : Nat} {calls : Prop}
  (asleep : Asleep sched slot wake)
include asleep

theorem sleeps (silent : ¬ calls) : WakesOrSleeps calls slot wake sched :=
  Or.inr ⟨fun called => silent called.1, asleep⟩

theorem wakes_or_sleeps (positive : wake ≠ 0) (called : calls) :
    WakesOrSleeps calls slot wake (schedWakeSleepers sched) := by
  rcases asleep.schedWakeSleepers_cases positive with
    ⟨isDue, ready⟩ | ⟨notDue, sleeps⟩
  · exact Or.inl ⟨called, isDue, by simp [Sched.Blocked, ready]⟩
  · exact Or.inr ⟨fun due => notDue due.2, sleeps⟩

theorem yield_cases (positive : wake ≠ 0) (called : calls)
    (runs : (sched.tasks sched.current).state = .running) :
    WakesOrSleeps calls slot wake (schedYield sched) := by
  have yields := schedYield_tasks (asleep.ne_current runs)
  unfold WakesOrSleeps
  rw [jiffies_schedYield]
  rcases asleep.schedWakeSleepers_cases positive with
    ⟨isDue, ready⟩ | ⟨notDue, sleeps⟩
  · refine Or.inl ⟨called, isDue, ?_⟩
    rcases yields with same | ⟨_, running⟩
    · simp [Sched.Blocked, same, ready]
    · simp [Sched.Blocked, running]
  · refine Or.inr ⟨fun due => notDue due.2, ?_⟩
    rcases yields with same | ⟨ready, _⟩
    · exact sleeps.of_same same
    · exact absurd (sleeps.blocked.symm.trans ready) nofun

/-- The blocking step of another task. -/
theorem of_setTask {other : Fin taskMax}
    (away : slot ≠ other) (task : Task) : Asleep (setTask other task sched) slot wake :=
  asleep.of_same (by simp [setTask, away])

theorem block_cases
    (runs : (sched.tasks sched.current).state = .running) (reason : WaitReason) (deadline : Nat) :
    Asleep (taskBlockTimeout reason deadline sched) slot wake := by
  unfold taskBlockTimeout
  split
  · exact asleep
  · exact asleep.of_setTask (asleep.ne_current runs) _

theorem round_cases (positive : wake ≠ 0) : WakesOrSleeps
    (sched.Blocked sched.current ∧ schedPickNext sched = none) slot wake (blockRound sched) := by
  unfold blockRound
  split
  · rename_i blocked
    split
    · rename_i next isNext
      apply sleeps _ (by simp [isNext])
      rcases schedSwitchTo_tasks isNext with same | ⟨ready, _⟩
      · exact asleep.of_same same
      · exact absurd (asleep.blocked.symm.trans ready) nofun
    · rename_i nobody
      exact asleep.wakes_or_sleeps positive ⟨blocked, nobody⟩
  · rename_i awake
    have away : slot ≠ sched.current := by
      intro same
      exact awake (same ▸ asleep.blocked)
    apply sleeps _ fun called => awake called.1
    apply of_setTask _ away
    exact asleep.of_same (exchangeState_tasks away _ _)

/-- One step. -/
theorem step_cases (positive : wake ≠ 0) (event : Event) :
    WakesOrSleeps (CallsWake sched event) slot wake (step sched event) := by
  cases event with
  | yield =>
    simp only [step]
    split
    · rename_i runs
      exact asleep.yield_cases positive runs runs
    · rename_i stopped
      exact asleep.sleeps stopped
  | block reason deadline =>
    simp only [step]
    split
    · rename_i runs
      exact (asleep.block_cases runs _ _).sleeps id
    · exact asleep.sleeps id
  | sleep ms =>
    simp only [step, taskSleepMs]
    split
    · rename_i runs
      split
      · rename_i zero
        exact asleep.yield_cases positive ⟨runs, UInt32.toNat_inj.mp zero⟩ runs
      · rename_i positiveMs
        refine (asleep.block_cases runs _ _).sleeps fun called => positiveMs ?_
        rw [called.2]
        rfl
    · rename_i stopped
      exact asleep.sleeps fun called => stopped called.1
  | round =>
    simp only [step]
    split
    · rename_i runs
      apply asleep.sleeps
      rintro ⟨blocked, _⟩
      cases blocked.symm.trans runs
    · exact asleep.round_cases positive
  | create =>
    simp only [step]
    split
    · unfold taskCreate
      split
      · exact asleep.sleeps id
      · rename_i free isFree
        have ended := meets_of_firstIndex isFree
        refine (asleep.of_setTask ?_ _).sleeps id
        intro same
        have blocked := asleep.blocked
        rw [Sched.Blocked, same] at blocked
        simp [blocked] at ended
    · exact asleep.sleeps id
  | setIdle other =>
    simp only [step]
    split
    · refine sleeps ?_ id
      by_cases here : slot = other
      · subst here
        apply asleep.of_tasks <;> simp [taskSetIdle, setTask]
      · exact asleep.of_setTask here _
    · exact asleep.sleeps id
  | tick =>
    have later : Asleep { sched with jiffies := sched.jiffies + 1 } slot wake := asleep.of_same rfl
    exact later.wakes_or_sleeps positive trivial
  | wakeNet =>
    refine sleeps (asleep.of_same ?_) id
    simp [step, schedWakeNet, asleep.reason]

end Asleep

theorem jiffies_step (sched : Sched) (event : Event) : (step sched event).jiffies =
    sched.jiffies + if event matches .tick then 1 else 0 := by
  cases event with
  | tick => rfl
  | wakeNet => rfl
  | yield => simp only [step]; split <;> simp
  | block reason deadline =>
    simp only [step, taskBlockTimeout]
    split
    · split <;> rfl
    · rfl
  | sleep ms =>
    simp only [step, taskSleepMs, taskBlockTimeout]
    split
    · split
      · simp
      · split <;> rfl
    · rfl
  | round =>
    simp only [step, blockRound]
    split
    · rfl
    · split
      · split
        · simp
        · rfl
      · simp [setTask]
  | create =>
    simp only [step, taskCreate]
    split
    · split <;> rfl
    · rfl
  | setIdle slot => simp only [step]; split <;> rfl

/-- Up to the tick after the time has elapsed, the wake-up time is due when
the time has elapsed. -/
def Sharp (start ms wake : Nat) : Prop :=
  ∀ ticks, 10 * ticks < ms + 10 →
    (due (timerMs (start + ticks)) wake ↔ ms ≤ 10 * ticks)

/-- The task sleeps, and its time has not elapsed. -/
def Early (start ms : Nat) (slot : Fin taskMax) (wake : Nat) (sched : Sched) : Prop :=
  Asleep sched slot wake ∧
    ∃ ticks, sched.jiffies = start + ticks ∧ 10 * ticks < ms

variable {start ms wake : Nat} (early : Early start ms slot wake sched)
include early

theorem Early.step_cases (positive : wake ≠ 0) (sharp : Sharp start ms wake) (event : Event) :
    (¬ (step sched event).Blocked slot ∧ ms ≤ elapsedMs start (step sched event)) ∨
    (Early start ms slot wake (step sched event) ∧
      ¬ (CallsWake sched event ∧ ms ≤ elapsedMs start (step sched event))) := by
  obtain ⟨asleep, ticks, time, before⟩ := early
  obtain ⟨later, laterTime, soon⟩ : ∃ later,
      (step sched event).jiffies = start + later ∧ 10 * later < ms + 10 ∧
        (10 * later < ms ∨ CallsWake sched event) := by
    refine ⟨ticks + if event matches .tick then 1 else 0, ?_, ?_, ?_⟩
    · rw [jiffies_step, time, Nat.add_assoc]
    · cases event <;> simp <;> omega
    · cases event <;> simp [CallsWake, before]
  have elapsed : elapsedMs start (step sched event) = 10 * later := by
    unfold elapsedMs
    rw [laterTime]
    omega
  have isDue := sharp later soon.1
  have cases := asleep.step_cases positive event
  unfold WakesOrSleeps at cases
  rw [laterTime, isDue] at cases
  rw [elapsed]
  rcases cases with ⟨_, late, awake⟩ | ⟨silent, sleeps⟩
  · exact Or.inl ⟨awake, late⟩
  · refine Or.inr ⟨⟨sleeps, later, laterTime, ?_⟩, silent⟩
    by_contra late
    rcases soon.2 with inTime | calls
    · exact late inTime
    · exact silent ⟨calls, not_lt.mp late⟩

/-- A run in which the task stays blocked. -/
theorem Early.run (positive : wake ≠ 0)
    (sharp : Sharp start ms wake) {events : List Event} {event : Event}
    (blocked : AlongRun step (fun before _ => before.Blocked slot) sched (events ++ [event])) :
    Early start ms slot wake (runFrom step sched events) := by
  induction events generalizing sched with
  | nil => exact early
  | cons first rest ih =>
    have stays := blocked.2
    have next : Early start ms slot wake (step sched first) := by
      rcases early.step_cases positive sharp first with ⟨awake, _⟩ | ⟨next, _⟩
      · cases rest <;> exact absurd stays.1 awake
      · exact next
    exact ih next stays

theorem Early.ticks (positive : wake ≠ 0)
    (sharp : Sharp start ms wake) (count : Nat) (inTime : elapsedMs start sched + 10 * count < ms) :
    AlongRun step (fun before _ => before.Blocked slot) sched (List.replicate count .tick) ∧
      (runFrom step sched (List.replicate count .tick)).Blocked slot ∧
      (runFrom step sched (List.replicate count .tick)).jiffies = sched.jiffies + count := by
  induction count generalizing sched with
  | zero => exact ⟨trivial, early.1.blocked, rfl⟩
  | succ count ih =>
    have tick : (step sched .tick).jiffies = sched.jiffies + 1 := rfl
    have later : elapsedMs start (step sched .tick) ≤ elapsedMs start sched + 10 := by
      unfold elapsedMs
      omega
    rcases early.step_cases positive sharp .tick with ⟨_, late⟩ | ⟨next, _⟩
    · omega
    · obtain ⟨along, blocked, time⟩ := ih next (by omega)
      exact ⟨⟨early.1.blocked, along⟩, blocked, time.trans (by omega)⟩

omit early

/-- The deadline that `task_sleep_ms` computes. -/
def sleepDeadline (start ms : Nat) : Nat :=
  (timerMs start + ms) % 2 ^ 32

/-- Sleeps of up to `2 ^ 31` ms, and when the deadline is 0 shorter ones that
do not end with a tick. -/
def Timed (start ms : Nat) : Prop :=
  ms = 0 ∨
    (sleepDeadline start ms ≠ 0 ∧ ms ≤ 2 ^ 31) ∨
    (sleepDeadline start ms = 0 ∧ ms < 2 ^ 31 ∧ ¬ 10 ∣ ms)

theorem due_sleepDeadline_iff {start ms : Nat} (positive : 0 < ms) (small : ms < 2 ^ 32) :
    due (timerMs start) (sleepDeadline start ms) ↔ 2 ^ 31 < ms := by
  unfold due sleepDeadline timerMs
  omega

theorem sharp_sleepDeadline (short : ms ≤ 2 ^ 31) : Sharp start ms (sleepDeadline start ms) := by
  intro ticks soon
  unfold due sleepDeadline timerMs
  omega

/-- The deadline 1 in the place of 0 is due 1 ms late. -/
theorem due_one_iff {ticks : Nat} (zero : sleepDeadline start ms = 0)
    (short : ms < 2 ^ 31) (soon : 10 * ticks < ms + 11) :
    due (timerMs (start + ticks)) 1 ↔ ms < 10 * ticks := by
  have timer : timerMs (start + ticks) =
      if 10 * ticks < ms then 2 ^ 32 + 10 * ticks - ms else 10 * ticks - ms := by
    unfold sleepDeadline timerMs at *
    split <;> omega
  unfold due
  rw [timer]
  split <;> omega

theorem due_one_of_long (zero : sleepDeadline start ms = 0)
    (long : 2 ^ 31 ≤ ms) (small : ms < 2 ^ 32) : due (timerMs start) 1 := by
  have timer : timerMs start = 2 ^ 32 - ms := by
    unfold sleepDeadline timerMs at *
    omega
  unfold due
  omega

/-- A call that does not return at once. -/
theorem asleep_step {sched : Sched} {ms : UInt32}
    (runs : (sched.tasks sched.current).state = .running) (positive : ms ≠ 0)
    (ahead : sleepDeadline sched.jiffies ms.toNat = 0 ∨ ms.toNat ≤ 2 ^ 31) :
    Asleep (step sched (.sleep ms)) sched.current (if sleepDeadline sched.jiffies ms.toNat ≠ 0 then
        sleepDeadline sched.jiffies ms.toNat else 1) := by
  have positiveMs : ms.toNat ≠ 0 := fun zero => positive (UInt32.toNat_inj.mp zero)
  have isDue := @due_sleepDeadline_iff sched.jiffies ms.toNat
    (Nat.pos_of_ne_zero positiveMs) ms.toNat_lt
  have waits : ¬ (sleepDeadline sched.jiffies ms.toNat ≠ 0 ∧
      due (timerMs sched.jiffies) (sleepDeadline sched.jiffies ms.toNat)) := by
    rw [isDue]
    omega
  have stepEq : step sched (.sleep ms) = taskBlockTimeout .sleep
      (sleepDeadline sched.jiffies ms.toNat) sched := by
    simp [step, taskSleepMs, runs, positiveMs, sleepDeadline]
  rw [stepEq, taskBlockTimeout, if_neg waits]
  exact ⟨by simp [Sched.Blocked, setTask], by simp [setTask], by simp [setTask]⟩

theorem jiffies_sleep (sched : Sched) (ms : UInt32) :
    (step sched (.sleep ms)).jiffies = sched.jiffies := jiffies_step sched (.sleep ms)

theorem sleepsFull_of_sharp {ms : UInt32}
    (asleep : Asleep (step sched (.sleep ms)) sched.current wake)
    (positive : wake ≠ 0) (sharp : Sharp sched.jiffies ms.toNat wake)
    (positiveMs : 0 < ms.toNat) : SleepsFull sched ms := by
  refine Or.inr ⟨asleep.blocked, ?_⟩
  intro events event blocked
  have early : Early sched.jiffies ms.toNat sched.current wake (step sched (.sleep ms)) :=
    ⟨asleep, 0, jiffies_sleep sched ms, positiveMs⟩
  rcases (early.run positive sharp blocked).step_cases positive sharp event with
    ⟨awake, elapsed⟩ | ⟨sleeps, silent⟩
  · exact ⟨fun _ => elapsed, fun _ _ => awake⟩
  · exact ⟨fun awake => absurd sleeps.1.blocked awake,
      fun calls elapsed => absurd ⟨calls, elapsed⟩ silent⟩

/-- A task whose wake-up time is due at once is woken before the next tick. -/
theorem not_sleepsFull_of_due {ms : UInt32}
    (asleep : Asleep (step sched (.sleep ms)) sched.current wake)
    (positive : wake ≠ 0) (isDue : due (timerMs sched.jiffies) wake)
    (current : (step sched (.sleep ms)).current = sched.current)
    (positiveMs : ms ≠ 0) : ¬ SleepsFull sched ms := by
  rintro (zero | ⟨-, sleeps⟩)
  · exact positiveMs zero
  have time := jiffies_sleep sched ms
  generalize step sched (.sleep ms) = start at asleep current sleeps time
  have early : ∀ reached : Sched, reached.jiffies = sched.jiffies →
      ¬ ms.toNat ≤ elapsedMs sched.jiffies reached := by
    intro reached same elapsed
    rw [elapsedMs, same, Nat.sub_self] at elapsed
    exact positiveMs (UInt32.toNat_inj.mp (Nat.le_zero.mp elapsed))
  have woken : ∀ before event, Asleep before sched.current wake →
      CallsWake before event → (step before event).jiffies = sched.jiffies →
      ¬ (step before event).Blocked sched.current := by
    intro before event sleeping calls same
    rcases sleeping.step_cases positive event with ⟨_, _, awake⟩ | ⟨silent, _⟩
    · exact awake
    · exact absurd ⟨calls, same ▸ isDue⟩ silent
  have blocked : start.Blocked start.current := current ▸ asleep.blocked
  have roundTime := (jiffies_step start .round).trans time
  cases picked : schedPickNext start with
  | none =>
    -- Nobody else is ready: the loop wakes the sleeping tasks itself.
    exact early _ roundTime ((sleeps [] .round ⟨asleep.blocked, trivial⟩).1
      (woken start .round asleep ⟨blocked, picked⟩ roundTime))
  | some next =>
    -- The next task yields.
    have switches : step start .round = schedSwitchTo next start := by
      unfold Sched.Blocked at blocked
      simp [step, blockRound, blocked, picked]
    have away : next ≠ start.current := by
      intro same
      have ready := ready_of_pickReady picked
      rw [same, blocked] at ready
      cases ready
    have runs : ((step start .round).tasks (step start .round).current).state = .running := by
      rw [switches, schedSwitchTo, if_neg away]
      simp [setState, setTask]
    have sleeping : Asleep (step start .round) sched.current wake := by
      rcases asleep.step_cases positive .round with ⟨calls, _⟩ | ⟨_, sleeping⟩
      · cases picked.symm.trans calls.2
      · exact sleeping
    have yieldTime := (jiffies_step (step start .round) .yield).trans roundTime
    exact early _ yieldTime ((sleeps [.round] .yield ⟨asleep.blocked, sleeping.blocked, trivial⟩).1
      (woken _ .yield sleeping runs yieldTime))

/-- A task whose wake-up time is late is not woken by the tick that ends its
time. -/
theorem not_sleepsFull_of_late {ms : UInt32}
    (asleep : Asleep (step sched (.sleep ms)) sched.current 1)
    (zero : sleepDeadline sched.jiffies ms.toNat = 0) (short : ms.toNat < 2 ^ 31)
    (whole : 10 ∣ ms.toNat) (positiveMs : ms ≠ 0) : ¬ SleepsFull sched ms := by
  rintro (isZero | ⟨-, sleeps⟩)
  · exact positiveMs isZero
  have time := jiffies_sleep sched ms
  have start : elapsedMs sched.jiffies (step sched (.sleep ms)) = 0 := by
    rw [elapsedMs, time, Nat.sub_self]
  obtain ⟨count, isCount⟩ := whole
  have sharp : Sharp sched.jiffies (ms.toNat + 1) 1 :=
    fun ticks soon => due_one_iff zero short (by omega)
  have early : Early sched.jiffies (ms.toNat + 1) sched.current 1
    (step sched (.sleep ms)) := ⟨asleep, 0, time, by omega⟩
  obtain ⟨along, blocked, later⟩ := early.ticks one_ne_zero sharp count (by omega)
  have positiveCount : count ≠ 0 := by
    rintro rfl
    exact positiveMs (UInt32.toNat_inj.mp isCount)
  obtain ⟨before, rfl⟩ := Nat.exists_eq_succ_of_ne_zero positiveCount
  rw [List.replicate_succ', runFrom_append] at blocked later
  rw [List.replicate_succ'] at along
  refine (sleeps _ _ along).2 trivial ?_ blocked
  have elapsed : (step (runFrom step (step sched (.sleep ms))
      (List.replicate before .tick)) .tick).jiffies = sched.jiffies + before.succ := by
    rw [← time]
    exact later
  rw [elapsedMs, elapsed]
  omega

/-- `task_sleep_ms` sleeps its time out. -/
theorem sleepsFull_iff {sched : Sched} {ms : UInt32}
    (runs : (sched.tasks sched.current).state = .running) :
    SleepsFull sched ms ↔ Timed sched.jiffies ms.toNat := by
  by_cases zero : ms = 0
  · subst zero
    exact ⟨fun _ => Or.inl rfl, fun _ => Or.inl rfl⟩
  have positive : ms.toNat ≠ 0 := fun isZero => zero (UInt32.toNat_inj.mp isZero)
  have asleep := @asleep_step sched ms runs zero
  have current : (step sched (.sleep ms)).current = sched.current := by
    simp only [step, runs, if_true, taskSleepMs, if_neg positive, taskBlockTimeout]
    split <;> rfl
  unfold Timed
  by_cases noDeadline : sleepDeadline sched.jiffies ms.toNat = 0
  · simp only [noDeadline, ne_eq, not_true_eq_false, if_false, true_or, forall_const] at asleep
    rcases lt_or_ge ms.toNat (2 ^ 31) with short | long
    · by_cases whole : 10 ∣ ms.toNat
      · have late := not_sleepsFull_of_late asleep noDeadline short whole zero
        exact iff_of_false late (by omega)
      · have full := sleepsFull_of_sharp asleep one_ne_zero
          (fun ticks soon => (due_one_iff noDeadline short (by omega)).trans
            (by omega)) (Nat.pos_of_ne_zero positive)
        exact iff_of_true full (Or.inr (Or.inr ⟨noDeadline, short, whole⟩))
    · have soon := not_sleepsFull_of_due asleep one_ne_zero
        (due_one_of_long noDeadline long ms.toNat_lt) current zero
      exact iff_of_false soon (by omega)
  · rw [if_pos noDeadline] at asleep
    rcases le_or_gt ms.toNat (2 ^ 31) with short | long
    · have full := sleepsFull_of_sharp (asleep (Or.inr short)) noDeadline
        (sharp_sleepDeadline short) (Nat.pos_of_ne_zero positive)
      exact iff_of_true full (Or.inr (Or.inl ⟨noDeadline, short⟩))
    · have returned : ¬ SleepsFull sched ms := by
        rintro (isZero | ⟨blocked, -⟩)
        · exact zero isZero
        · have isDue := (@due_sleepDeadline_iff sched.jiffies ms.toNat
            (Nat.pos_of_ne_zero positive) ms.toNat_lt).mpr long
          have stepEq : step sched (.sleep ms) = sched := by
            simp only [step, runs, if_true, taskSleepMs, if_neg positive]
            exact if_pos ⟨noDeadline, isDue⟩
          rw [stepEq, Sched.Blocked, runs] at blocked
          cases blocked
      exact iff_of_false returned (by omega)

theorem sleepsFull_second :
    SleepsFull schedInit 1000 ↔ Timed schedInit.jiffies (1000 : UInt32).toNat := sleepsFull_iff rfl

/-- A sleep of over `2 ^ 31` ms returns at once. -/
theorem sleep_returns_early : ¬ SleepsFull schedInit 0x80000001 := by
  rintro (zero | ⟨blocked, -⟩)
  · exact absurd zero (by decide)
  · exact absurd blocked (by unfold Sched.Blocked; decide)

end KnitOS.Scheduling
