import KnitOS.Lib.Command

/-!
# Frames of commands

A command stays within a relation when every run of it, a failing one included,
ends in a state related to the one it started from.
-/

namespace KnitOS.Lib

namespace Command

variable {σ α β : Type} {state reached : σ} {command : Command σ α}

theorem run_bind_eq_some_iff {next : α → Command σ β} {result : β} :
    (command >>= next).run state = (some result, reached) ↔
    ∃ value middle, command.run state = (some value, middle) ∧
      (next value).run middle = (some result, reached) := by
  rw [run_bind]
  constructor
  · intro returned
    split at returned
    · rename_i value middle ran
      exact ⟨value, middle, ran, returned⟩
    · cases returned
  · rintro ⟨value, middle, ran, returned⟩
    rw [ran]
    exact returned

theorem run_require_eq_some_iff {condition : Prop} [Decidable condition]
    {value : Unit} : (require condition : Command σ Unit).run state = (some value, reached) ↔
      condition ∧ reached = state := by
  unfold require
  split
  · rename_i holds
    constructor
    · intro returned
      cases returned
      exact ⟨holds, rfl⟩
    · rintro ⟨_, rfl⟩
      rfl
  · rename_i fails
    constructor
    · intro returned
      cases returned
    · rintro ⟨holds, _⟩
      exact absurd holds fails

/-- Every run ends in a state related to the first one. -/
def Stays (Related : σ → σ → Prop) (command : Command σ α) : Prop :=
  ∀ state, Related state (command.run state).2

variable {Related : σ → σ → Prop}

theorem Stays.of_some (stays : Stays Related command) {value : α}
    (returned : command.run state = (some value, reached)) : Related state reached := by
  have related := stays state
  rw [returned] at related
  exact related

theorem Stays.mono {Weaker : σ → σ → Prop}
    (weakens : ∀ state reached, Related state reached → Weaker state reached)
    (stays : Stays Related command) : Stays Weaker command :=
  fun state => weakens state _ (stays state)

theorem stays_modify {update : σ → σ}
    (related : ∀ state, Related state (update state)) : Stays Related (modify update) := related

section

variable {Related : σ → σ → Prop} [Std.Refl Related]

theorem stays_pure (value : α) : Stays Related (pure value : Command σ α) :=
  fun state => Std.Refl.refl state

theorem stays_fail : Stays Related (fail : Command σ α) := fun state => Std.Refl.refl state

theorem stays_reads (field : σ → α) : Stays Related (reads field) :=
  fun state => Std.Refl.refl state

theorem stays_require (condition : Prop) [Decidable condition] :
    Stays Related (require condition : Command σ Unit) := by
  unfold require
  split
  · exact stays_pure ()
  · exact stays_fail

theorem stays_whenever (condition : Bool) {command : Command σ Unit}
    (stays : Stays Related command) : Stays Related (whenever condition command) := by
  cases condition with
  | false => exact stays_pure ()
  | true => exact stays

end

theorem stays_bind [IsTrans σ Related] {next : α → Command σ β} (first : Stays Related command)
    (second : ∀ value, Stays Related (next value)) : Stays Related (command >>= next) := by
  intro state
  have related := first state
  rw [run_bind]
  split
  · rename_i value reached ran
    rw [ran] at related
    exact IsTrans.trans state reached _ related (second value reached)
  · rename_i reached failed
    rw [failed] at related
    exact related

end Command

end KnitOS.Lib
