import Mathlib.Logic.Function.Basic

/-!
# Programs that talk to a device

A program works on variables of its own and sends requests to a device, from
which it is kept apart: what it does over one device can be read off another
that simulates it (`run_simulates`).  The failure exit `done none` keeps
everything done before it, as an early return does.
-/

namespace KnitOS.Lib

/-- A program with variables `σ` and results in `α`. -/
inductive Program (σ ρ τ α : Type) where
  | done (outcome : Option α)
  | get (next : σ → Program σ ρ τ α)
  | put (state : σ) (next : Program σ ρ τ α)
  | call (request : ρ) (next : τ → Program σ ρ τ α)

/-- A device with states `δ` answers requests `ρ` with responses `τ`. -/
abbrev Device (δ ρ τ : Type) : Type := ρ → δ → τ × δ

namespace Program

variable {σ ρ τ α β δ δ' : Type}

/-- Hand the outcome of a program, failure included, to the next one. -/
def andThen : Program σ ρ τ α → (Option α → Program σ ρ τ β) → Program σ ρ τ β
  | done outcome, next => next outcome
  | get rest, next => get fun state => (rest state).andThen next
  | put state rest, next => put state (rest.andThen next)
  | call request rest, next =>
    call request fun response => (rest response).andThen next

instance : Monad (Program σ ρ τ) where
  pure value := done (some value)
  bind program next :=
    program.andThen fun outcome =>
      match outcome with
      | some value => next value
      | none => done none

def fail : Program σ ρ τ α := done none

def reads (field : σ → α) : Program σ ρ τ α :=
  get fun state => pure (field state)

def modify (update : σ → σ) : Program σ ρ τ Unit :=
  get fun state => put (update state) (pure ())

def request (message : ρ) : Program σ ρ τ τ :=
  call message pure

/-- Leave through the failure exit unless the condition holds. -/
def require (condition : Prop) [Decidable condition] : Program σ ρ τ Unit :=
  if condition then pure () else fail

/-- Run a program if the condition holds, and go on in either case. -/
def whenever (condition : Prop) [Decidable condition]
    (program : Program σ ρ τ Unit) : Program σ ρ τ Unit :=
  if condition then program else pure ()

/-- Run a program and hand its outcome, failure included, to the caller. -/
def attempt (program : Program σ ρ τ α) : Program σ ρ τ (Option α) :=
  program.andThen fun outcome => done (some outcome)

/-- Run `body start`, `body (start + 1)`, ... for `count` rounds; a round
that fails ends the loop. -/
def forRange (body : Nat → Program σ ρ τ Unit) : Nat → Nat → Program σ ρ τ Unit
  | _, 0 => pure ()
  | start, count + 1 => do
      body start
      forRange body (start + 1) count

/-- Execute a program over a device. -/
def run (device : Device δ ρ τ) : Program σ ρ τ α → σ → δ → Option α × σ × δ
  | done outcome, state, dev => (outcome, state, dev)
  | get next, state, dev => (next state).run device state dev
  | put state next, _, dev => next.run device state dev
  | call message next, state, dev =>
    (next (device message dev).1).run device state (device message dev).2

section

variable (device : Device δ ρ τ) (state : σ) (dev : δ)

theorem run_andThen (program : Program σ ρ τ α) (next : Option α → Program σ ρ τ β) :
    (program.andThen next).run device state dev = (next (program.run device state dev).1).run device
        (program.run device state dev).2.1 (program.run device state dev).2.2 := by
  induction program generalizing state dev with
  | done outcome => rfl
  | get rest ih => exact ih state state dev
  | put stored rest ih => exact ih stored dev
  | call message rest ih =>
    exact ih _ state (device message dev).2

theorem run_bind (program : Program σ ρ τ α) (next : α → Program σ ρ τ β) :
    (program >>= next).run device state dev = match program.run device state dev with
      | (some value, reached, reachedDev) =>
        (next value).run device reached reachedDev
      | (none, reached, reachedDev) => (none, reached, reachedDev) := by
  change (program.andThen _).run device state dev = _
  rw [run_andThen]
  rcases program.run device state dev with ⟨outcome, reached, reachedDev⟩
  cases outcome with
  | none => rfl
  | some value => rfl

variable {next : α → Program σ ρ τ β} {program : Program σ ρ τ α}

theorem run_bind_of_some {device : Device δ ρ τ}
    {state reached : σ} {dev reachedDev : δ} {value : α} (returned :
      program.run device state dev = (some value, reached, reachedDev)) :
    (program >>= next).run device state dev = (next value).run device reached reachedDev := by
  rw [run_bind, returned]

theorem run_bind_of_none {device : Device δ ρ τ} {state reached : σ} {dev reachedDev : δ}
    (failed : program.run device state dev = (none, reached, reachedDev)) :
    (program >>= next).run device state dev = (none, reached, reachedDev) := by
  rw [run_bind, failed]

theorem run_bind_assoc {γ : Type} (program : Program σ ρ τ α)
    (next : α → Program σ ρ τ β) (last : β → Program σ ρ τ γ) :
    ((program >>= next) >>= last).run device state dev =
      (program >>= fun value => next value >>= last).run device state dev := by
  rw [run_bind, run_bind, run_bind]
  rcases program.run device state dev with ⟨outcome, reached, reachedDev⟩
  cases outcome with
  | none => rfl
  | some value => exact (run_bind device reached reachedDev _ _).symm

@[simp]
theorem run_pure (value : α) : (pure value : Program σ ρ τ α).run device state dev =
      (some value, state, dev) := rfl

@[simp]
theorem run_fail : (fail : Program σ ρ τ α).run device state dev = (none, state, dev) := rfl

@[simp]
theorem run_attempt (program : Program σ ρ τ α) : (attempt program).run device state dev =
    (some (program.run device state dev).1, (program.run device state dev).2) :=
  run_andThen device state dev program _

@[simp]
theorem run_pure_bind (value : α) (next : α → Program σ ρ τ β) :
    ((pure value : Program σ ρ τ α) >>= next).run device state dev =
      (next value).run device state dev := rfl

@[simp]
theorem run_fail_bind (next : α → Program σ ρ τ β) :
    ((fail : Program σ ρ τ α) >>= next).run device state dev = (none, state, dev) := rfl

@[simp]
theorem run_reads_bind (field : σ → α) (next : α → Program σ ρ τ β) :
    (reads field >>= next).run device state dev = (next (field state)).run device state dev := rfl

@[simp]
theorem run_modify_bind (update : σ → σ) (next : Unit → Program σ ρ τ β) :
    (modify update >>= next).run device state dev = (next ()).run device (update state) dev := rfl

@[simp]
theorem run_modify (update : σ → σ) : (modify update : Program σ ρ τ Unit).run device state dev =
      (some (), update state, dev) := rfl

@[simp]
theorem run_request_bind (message : ρ) (next : τ → Program σ ρ τ β) :
    (request message >>= next).run device state dev = (next (device message dev).1).run device state
        (device message dev).2 := rfl

@[simp]
theorem run_attempt_bind (program : Program σ ρ τ α) (next : Option α → Program σ ρ τ β) :
    (attempt program >>= next).run device state dev =
      (next (program.run device state dev).1).run device (program.run device state dev).2.1
        (program.run device state dev).2.2 := by
  rw [run_bind, run_attempt]

end

theorem require_of {condition : Prop} [Decidable condition] (holds : condition) :
    (require condition : Program σ ρ τ Unit) = pure () := if_pos holds

theorem require_of_not {condition : Prop} [Decidable condition] (fails : ¬ condition) :
    (require condition : Program σ ρ τ Unit) = fail := if_neg fails

theorem require_bind_require {first second : Prop} [Decidable first] [Decidable second]
    (next : Unit → Program σ ρ τ α) : (require first >>= fun _ => require second >>= next) =
      (require (first ∧ second) >>= next) := by
  by_cases holds : first
  · simp only [require, holds, true_and, if_true]
    rfl
  · simp only [require, holds, false_and, if_false]
    rfl

/-- A device can stand for another one as long as it stays in the states
`Valid`. -/
structure Simulates (device : Device δ ρ τ) (model : Device δ' ρ τ)
    (Valid : δ' → Prop) (Related : δ → δ' → Prop) : Prop where
  before : ∀ message dev', Valid (model message dev').2 → Valid dev'
  step : ∀ message dev dev', Related dev dev' → Valid (model message dev').2 →
      (device message dev).1 = (model message dev').1 ∧
        Related (device message dev).2 (model message dev').2

variable {device : Device δ ρ τ} {model : Device δ' ρ τ}
  {Valid : δ' → Prop} {Related : δ → δ' → Prop}

theorem Simulates.valid_of_run (simulates : Simulates device model Valid Related)
    (program : Program σ ρ τ α) (state : σ) (dev' : δ')
    (valid : Valid (program.run model state dev').2.2) : Valid dev' := by
  induction program generalizing state dev' with
  | done outcome => exact valid
  | get next ih =>
    exact ih state state dev' valid
  | put stored next ih =>
    exact ih stored dev' valid
  | call message next ih =>
    exact simulates.before message dev' (ih _ state (model message dev').2 valid)

theorem Simulates.run_eq (simulates : Simulates device model Valid Related)
    (program : Program σ ρ τ α) (state : σ) {dev : δ} {dev' : δ'} (related : Related dev dev')
    (valid : Valid (program.run model state dev').2.2) :
    (program.run device state dev).1 = (program.run model state dev').1 ∧
      (program.run device state dev).2.1 = (program.run model state dev').2.1 ∧
      Related (program.run device state dev).2.2 (program.run model state dev').2.2 := by
  induction program generalizing state dev dev' with
  | done outcome => exact ⟨rfl, rfl, related⟩
  | get next ih =>
    exact ih state state related valid
  | put stored next ih =>
    exact ih stored related valid
  | call message next ih =>
    have validAfter : Valid (model message dev').2 := simulates.valid_of_run _ state _ valid
    obtain ⟨sameResponse, relatedAfter⟩ := simulates.step message dev dev' related validAfter
    rw [run, run, sameResponse]
    exact ih _ state relatedAfter valid

end Program

end KnitOS.Lib
