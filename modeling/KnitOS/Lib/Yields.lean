import KnitOS.Lib.Program

/-!
# Postconditions of programs

`Yields` says what a program leaves behind when it starts from given variables
and a given store, the part of the device a caller reasons about; `embed` says
which device state holds it.
-/

namespace KnitOS.Lib.Program

variable {σ ρ τ α β δ κ : Type}

/-- From these variables and this store, the program ends in a state with the
postcondition. -/
def Yields (device : Device δ ρ τ) (embed : κ → δ)
    (program : Program σ ρ τ α) (state : σ) (store : κ) (post : Option α → σ → κ → Prop) : Prop :=
  ∃ outcome state' store',
    program.run device state (embed store) =
      (outcome, state', embed store') ∧
    post outcome state' store'

section

variable {device : Device δ ρ τ} {embed : κ → δ} {state : σ} {store : κ}
  {post : Option β → σ → κ → Prop} {program : Program σ ρ τ α}

theorem Yields.mono {first second : Option α → σ → κ → Prop}
    (yields : program.Yields device embed state store first)
    (weaker : ∀ outcome state' store', first outcome state' store' → second outcome state' store') :
    program.Yields device embed state store second := by
  obtain ⟨outcome, state', store', ran, holds⟩ := yields
  exact ⟨outcome, state', store', ran, weaker outcome state' store' holds⟩

theorem Yields.with_outcome {holdsAfter : Option α → σ → κ → Prop}
    (yields : program.Yields device embed state store holdsAfter) :
    program.Yields device embed state store fun outcome state' store' =>
      holdsAfter outcome state' store' ∧ (program.run device state (embed store)).1 = outcome := by
  obtain ⟨outcome, state', store', ran, holds⟩ := yields
  exact ⟨outcome, state', store', ran, holds, by rw [ran]⟩

variable {next : α → Program σ ρ τ β}

theorem Yields.bind {middle : Option α → σ → κ → Prop}
    (first : program.Yields device embed state store middle)
    (failed : ∀ state' store', middle none state' store' → post none state' store')
    (then_ : ∀ value state' store', middle (some value) state' store' →
      (next value).Yields device embed state' store' post) :
    (program >>= next).Yields device embed state store post := by
  obtain ⟨outcome, state', store', ran, holds⟩ := first
  cases outcome with
  | none =>
    exact ⟨none, state', store', run_bind_of_none ran, failed state' store' holds⟩
  | some value =>
    obtain ⟨last, state'', store'', ranNext, holdsNext⟩ :=
      then_ value state' store' holds
    refine ⟨last, state'', store'', ?_, holdsNext⟩
    rw [run_bind_of_some ran]
    exact ranNext

theorem Yields.attempt_bind {next : Option α → Program σ ρ τ β} {middle : Option α → σ → κ → Prop}
    (first : program.Yields device embed state store middle)
    (then_ : ∀ outcome state' store', middle outcome state' store' →
      (next outcome).Yields device embed state' store' post) :
    (attempt program >>= next).Yields device embed state store post := by
  obtain ⟨outcome, state', store', ran, holds⟩ := first
  obtain ⟨last, state'', store'', ranNext, holdsNext⟩ :=
    then_ outcome state' store' holds
  refine ⟨last, state'', store'', ?_, holdsNext⟩
  rw [run_attempt_bind, ran]
  exact ranNext

theorem Yields.assoc {γ : Type} {next : α → Program σ ρ τ γ} {last : γ → Program σ ρ τ β}
    (nested : ((program >>= next) >>= last).Yields device embed state store post) :
    (program >>= fun value => next value >>= last).Yields device embed state store post := by
  obtain ⟨outcome, state', store', ran, holds⟩ := nested
  rw [run_bind_assoc] at ran
  exact ⟨outcome, state', store', ran, holds⟩

theorem Yields.bind_of_run {value : α} {state' : σ} {store' : κ}
    (ran : program.run device state (embed store) = (some value, state', embed store'))
    (then_ : (next value).Yields device embed state' store' post) :
    (program >>= next).Yields device embed state store post := by
  obtain ⟨last, state'', store'', ranNext, holdsNext⟩ := then_
  refine ⟨last, state'', store'', ?_, holdsNext⟩
  rw [run_bind_of_some ran]
  exact ranNext

theorem Yields.attempt_bind_of_run
    {next : Option α → Program σ ρ τ β} {outcome : Option α} {state' : σ}
    {store' : κ} (ran : program.run device state (embed store) = (outcome, state', embed store'))
    (then_ : (next outcome).Yields device embed state' store' post) :
    (attempt program >>= next).Yields device embed state store post := by
  apply Yields.bind_of_run _ then_
  rw [run_attempt, ran]

theorem yields_pure {value : β} (holds : post (some value) state store) :
    (pure value : Program σ ρ τ β).Yields device embed state store post :=
  ⟨some value, state, store, rfl, holds⟩

theorem yields_fail (holds : post none state store) :
    (fail : Program σ ρ τ β).Yields device embed state store post :=
  ⟨none, state, store, rfl, holds⟩

theorem yields_reads_bind {field : σ → α}
    (then_ : (next (field state)).Yields device embed state store post) :
    (reads field >>= next).Yields device embed state store post :=
  then_

theorem yields_modify_bind {update : σ → σ} {next : Unit → Program σ ρ τ β}
    (then_ : (next ()).Yields device embed (update state) store post) :
    (modify update >>= next).Yields device embed state store post :=
  then_

variable {condition : Prop}

theorem yields_require_bind [Decidable condition]
    {next : Unit → Program σ ρ τ β} (fails : ¬ condition → post none state store)
    (then_ : condition → (next ()).Yields device embed state store post) :
    (require condition >>= next).Yields device embed state store post := by
  by_cases holds : condition
  · rw [require_of holds]
    exact then_ holds
  · rw [require_of_not holds]
    exact ⟨none, state, store, rfl, fails holds⟩

theorem yields_require {post : Option Unit → σ → κ → Prop} [Decidable condition]
    (fails : ¬ condition → post none state store)
    (passes : condition → post (some ()) state store) :
    (require condition : Program σ ρ τ Unit).Yields device embed state store post := by
  by_cases holds : condition
  · rw [require_of holds]
    exact yields_pure (passes holds)
  · rw [require_of_not holds]
    exact yields_fail (fails holds)

theorem yields_whenever_bind [Decidable condition]
    {program : Program σ ρ τ Unit} {next : Unit → Program σ ρ τ β} (taken : condition →
      (program >>= next).Yields device embed state store post) (skipped : ¬ condition →
      (next ()).Yields device embed state store post) :
    (whenever condition program >>= next).Yields device embed state store post := by
  unfold whenever
  by_cases holds : condition
  · rw [if_pos holds]
    exact taken holds
  · rw [if_neg holds]
    exact skipped holds

theorem yields_ite [Decidable condition] {first second : Program σ ρ τ β}
    (taken : condition → first.Yields device embed state store post)
    (otherwise : ¬ condition → second.Yields device embed state store post) :
    (if condition then first else second).Yields device embed state store post := by
  by_cases holds : condition
  · rw [if_pos holds]
    exact taken holds
  · rw [if_neg holds]
    exact otherwise holds

end

end KnitOS.Lib.Program
