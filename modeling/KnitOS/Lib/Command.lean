import Mathlib.Logic.Function.Basic

/-!
# Commands with a state and a failure exit

A command returns a value or takes the failure exit, and hands on the state it
has reached in both cases, as an early `return -1` in C does.
-/

namespace KnitOS.Lib

/-- A command over states `σ` with results in `α`; `none` is the failure
exit. -/
structure Command (σ α : Type) where
  run : σ → Option α × σ

namespace Command

variable {σ τ α β : Type}

instance : Monad (Command σ) where
  pure value := ⟨fun state => (some value, state)⟩
  bind command next := ⟨fun state =>
    match command.run state with
    | (some value, reached) => (next value).run reached
    | (none, reached) => (none, reached)⟩

def fail : Command σ α :=
  ⟨fun state => (none, state)⟩

def reads (field : σ → α) : Command σ α :=
  ⟨fun state => (some (field state), state)⟩

def modify (update : σ → σ) : Command σ Unit :=
  ⟨fun state => (some (), update state)⟩

/-- Leave through the failure exit unless the condition holds. -/
def require (condition : Prop) [Decidable condition] : Command σ Unit :=
  if condition then pure () else fail

/-- Run a command if the condition holds, and go on in either case. -/
def whenever (condition : Bool) (command : Command σ Unit) : Command σ Unit :=
  if condition then command else pure ()

/-- Run a command and hand its outcome, failure included, to the caller. -/
def attempt (command : Command σ α) : Command σ (Option α) :=
  ⟨fun state => (some (command.run state).1, (command.run state).2)⟩

@[simp]
theorem run_pure (value : α) (state : σ) :
    (pure value : Command σ α).run state = (some value, state) := rfl

theorem run_bind (command : Command σ α) (next : α → Command σ β) (state : σ) :
    (command >>= next).run state = match command.run state with
      | (some value, reached) => (next value).run reached
      | (none, reached) => (none, reached) := rfl

@[simp]
theorem run_fail (state : σ) : (fail : Command σ α).run state = (none, state) := rfl

@[simp]
theorem run_reads (field : σ → α) (state : σ) :
    (reads field).run state = (some (field state), state) := rfl

@[simp]
theorem run_modify (update : σ → σ) (state : σ) :
    (modify update).run state = (some (), update state) := rfl

theorem run_bind_of_some {command : Command σ α} {next : α → Command σ β}
    {state reached : σ} {value : α} (returned : command.run state = (some value, reached)) :
    (command >>= next).run state = (next value).run reached := by
  rw [run_bind, returned]

theorem run_bind_of_none {command : Command σ α} {next : α → Command σ β}
    {state reached : σ} (failed : command.run state = (none, reached)) :
    (command >>= next).run state = (none, reached) := by
  rw [run_bind, failed]

@[simp]
theorem run_pure_bind (value : α) (next : α → Command σ β) (state : σ) :
    ((pure value : Command σ α) >>= next).run state = (next value).run state := rfl

@[simp]
theorem run_reads_bind (field : σ → α) (next : α → Command σ β) (state : σ) :
    (reads field >>= next).run state = (next (field state)).run state := rfl

@[simp]
theorem run_modify_bind (update : σ → σ) (next : Unit → Command σ β) (state : σ) :
    (modify update >>= next).run state = (next ()).run (update state) := rfl

@[simp]
theorem whenever_true (command : Command σ Unit) : whenever true command = command := rfl

@[simp]
theorem whenever_false (command : Command σ Unit) : whenever false command = pure () := rfl

end Command

end KnitOS.Lib
