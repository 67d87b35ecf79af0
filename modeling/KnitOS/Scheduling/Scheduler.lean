import KnitOS.Tasks.Descriptors

/-!
# The scheduler

`sched_pick_next`, `sched_switch_to` and their callers in `task.cpp`.  Only the
task that runs calls the scheduler, and an interrupt comes between two steps.
A preemption is a yield that the time slice asks for.
-/

namespace KnitOS.Scheduling

open Lib
open Tasks (TaskState taskMax pickReady)

inductive WaitReason where
  | none
  | sleep
  | net
deriving DecidableEq

/-- The fields of a task that the scheduler uses. -/
structure Task where
  state : TaskState
  wakeMs : Nat
  waitReason : WaitReason
  isIdle : Bool

/-- The task table, the current task, and the ticks since the boot. -/
structure Sched where
  tasks : Fin taskMax → Task
  current : Fin taskMax
  jiffies : Nat

/-- A tick is 10 ms, and the timer has 32 bits. -/
def timerMs (jiffies : Nat) : Nat :=
  10 * jiffies % 2 ^ 32

/-- `(int32_t)(now - deadline) >= 0`. -/
def due (now deadline : Nat) : Prop :=
  (now + 2 ^ 32 - deadline) % 2 ^ 32 < 2 ^ 31

instance decidableDue (now deadline : Nat) : Decidable (due now deadline) :=
  inferInstanceAs (Decidable (_ < _))

def setTask (slot : Fin taskMax) (task : Task) (sched : Sched) : Sched :=
  { sched with tasks := Function.update sched.tasks slot task }

def setState (slot : Fin taskMax) (state : TaskState) (sched : Sched) : Sched :=
  setTask slot { sched.tasks slot with state } sched

def Task.woken (task : Task) : Task :=
  { task with wakeMs := 0, waitReason := .none, state := .ready }

def Task.WakesAt (now : Nat) (task : Task) : Prop :=
  task.state = .blocked ∧ task.wakeMs ≠ 0 ∧ due now task.wakeMs

instance decidableWakesAt (now : Nat) (task : Task) : Decidable (task.WakesAt now) :=
  inferInstanceAs (Decidable (_ ∧ _))

def schedWakeSleepers (sched : Sched) : Sched :=
  { sched with
    tasks := fun slot =>
      if (sched.tasks slot).WakesAt (timerMs sched.jiffies) then
        (sched.tasks slot).woken
      else
        sched.tasks slot }

def schedWakeNet (sched : Sched) : Sched :=
  { sched with
    tasks := fun slot =>
      if (sched.tasks slot).state = .blocked ∧
          (sched.tasks slot).waitReason = .net then
        (sched.tasks slot).woken
      else
        sched.tasks slot }

def schedPickNext (sched : Sched) : Option (Fin taskMax) :=
  pickReady Task.state Task.isIdle sched.current sched.tasks

def schedSwitchTo (next : Fin taskMax) (sched : Sched) : Sched :=
  if next = sched.current then
    sched
  else
    { setState next .running sched with current := next }

/-- A state of the current task is replaced, if it has it. -/
def exchangeState (before after : TaskState) (sched : Sched) : Sched :=
  if (sched.tasks sched.current).state = before then
    setState sched.current after sched
  else
    sched

def schedYield (sched : Sched) : Sched :=
  let readied := exchangeState .running .ready (schedWakeSleepers sched)
  match schedPickNext readied with
  | none => exchangeState .ready .running readied
  | some next =>
    if next = sched.current then
      exchangeState .ready .running readied
    else
      schedSwitchTo next readied

def schedOnTick (sched : Sched) : Sched :=
  schedWakeSleepers { sched with jiffies := sched.jiffies + 1 }

/-- `task_block_timeout` before its loop. -/
def taskBlockTimeout (reason : WaitReason) (deadline : Nat) (sched : Sched) : Sched :=
  if deadline ≠ 0 ∧ due (timerMs sched.jiffies) deadline then
    sched
  else
    setTask sched.current
      { sched.tasks sched.current with
        waitReason := if reason = .none then .sleep else reason
        wakeMs := if deadline ≠ 0 then deadline else 1
        state := .blocked } sched

/-- A round of the loop of `task_block_timeout`, or its end. -/
def blockRound (sched : Sched) : Sched :=
  if (sched.tasks sched.current).state = .blocked then
    match schedPickNext sched with
    | some next => schedSwitchTo next sched
    | none => schedWakeSleepers sched
  else
    let running := exchangeState .ready .running sched
    setTask sched.current
      { running.tasks sched.current with waitReason := .none } running

def taskSleepMs (ms : Nat) (sched : Sched) : Sched :=
  if ms = 0 then
    schedYield sched
  else
    taskBlockTimeout .sleep ((timerMs sched.jiffies + ms) % 2 ^ 32) sched

/-- A new task, in a slot that is unused or of a task that has ended. -/
def taskCreate (sched : Sched) : Sched :=
  match firstIndex
      (fun task : Task => task.state = .zombie ∨ task.state = .unused)
      sched.tasks with
  | none => sched
  | some slot => setTask slot ⟨.ready, 0, .none, false⟩ sched

def taskSetIdle (slot : Fin taskMax) (sched : Sched) : Sched :=
  setTask slot { sched.tasks slot with isIdle := true } sched

inductive Event where
  | yield
  | block (reason : WaitReason) (deadline : UInt32)
  | sleep (ms : UInt32)
  | round
  | create
  | setIdle (slot : Fin taskMax)
  | tick
  | wakeNet

/-- The current task calls while it runs, and is in the loop of
`task_block_timeout` otherwise. -/
def step (sched : Sched) (event : Event) : Sched :=
  let runs := (sched.tasks sched.current).state = .running
  match event with
  | .yield => if runs then schedYield sched else sched
  | .block reason deadline =>
    if runs then taskBlockTimeout reason deadline.toNat sched else sched
  | .sleep ms => if runs then taskSleepMs ms.toNat sched else sched
  | .round => if runs then sched else blockRound sched
  | .create => if runs then taskCreate sched else sched
  | .setIdle slot => if runs then taskSetIdle slot sched else sched
  | .tick => schedOnTick sched
  | .wakeNet => schedWakeNet sched

def schedInit : Sched where
  tasks slot := ⟨if slot = 0 then .running else .unused, 0, .none, false⟩
  current := 0
  jiffies := 0

end KnitOS.Scheduling
