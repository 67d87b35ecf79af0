import Mathlib.Data.List.Basic

/-!
# Runs of a step function

A run feeds a list of inputs to a step function, with induction rules for
simulations and for invariants.
-/

namespace KnitOS.Lib

variable {σ τ ι : Type}

/-- The state reached from `start` by feeding the inputs in order. -/
def runFrom (step : σ → ι → σ) (start : σ) (inputs : List ι) : σ :=
  inputs.foldl step start

@[simp]
theorem runFrom_nil (step : σ → ι → σ) (start : σ) : runFrom step start [] = start := rfl

@[simp]
theorem runFrom_cons (step : σ → ι → σ) (start : σ) (input : ι) (rest : List ι) :
    runFrom step start (input :: rest) = runFrom step (step start input) rest := rfl

theorem runFrom_append (step : σ → ι → σ) (start : σ) (first second : List ι) :
    runFrom step start (first ++ second) = runFrom step (runFrom step start first) second := by
  simp [runFrom, List.foldl_append]

theorem runFrom_map {κ : Type} (step : σ → ι → σ) (start : σ) (input : κ → ι) (items : List κ) :
    runFrom step start (items.map input) =
      runFrom (fun state item => step state (input item)) start items := by
  simp [runFrom, List.foldl_map]

variable {step : σ → ι → σ}

theorem runFrom_simulates {step' : τ → ι → τ} {Related : σ → τ → Prop}
    (keeps : ∀ state state' input,
      Related state state' → Related (step state input) (step' state' input))
    {start : σ} {start' : τ} (related : Related start start') (inputs : List ι) :
    Related (runFrom step start inputs) (runFrom step' start' inputs) := by
  induction inputs generalizing start start' with
  | nil => exact related
  | cons input rest ih =>
    exact ih (keeps start start' input related)

variable {Holds : σ → Prop}

theorem runFrom_invariant (keeps : ∀ state input, Holds state → Holds (step state input))
    {start : σ} (holds : Holds start) (inputs : List ι) : Holds (runFrom step start inputs) := by
  induction inputs generalizing start with
  | nil => exact holds
  | cons input rest ih =>
    exact ih (keeps start input holds)

/-- Every step of a run meets a condition on the state it starts from. -/
def AlongRun (step : σ → ι → σ) (Allowed : σ → ι → Prop) : σ → List ι → Prop
  | _, [] => True
  | state, input :: rest =>
    Allowed state input ∧ AlongRun step Allowed (step state input) rest

instance AlongRun.decide {step : σ → ι → σ} {Allowed : σ → ι → Prop}
    [∀ state input, Decidable (Allowed state input)] : ∀ (state : σ) (inputs : List ι),
      Decidable (AlongRun step Allowed state inputs)
  | _, [] => isTrue trivial
  | state, input :: rest =>
    @instDecidableAnd _ _ inferInstance
      (AlongRun.decide (step state input) rest)

variable {Allowed : σ → ι → Prop}

theorem AlongRun.and_inputs
    {Admitted : ι → Prop} : ∀ {inputs : List ι} {start : σ}, AlongRun step Allowed start inputs →
      (∀ input ∈ inputs, Admitted input) →
      AlongRun step (fun state input => Admitted input ∧ Allowed state input) start inputs := by
  intro inputs
  induction inputs with
  | nil =>
    intro start _ _
    trivial
  | cons input rest ih =>
    intro start allowed admitted
    refine ⟨⟨admitted input List.mem_cons_self, allowed.1⟩, ?_⟩
    exact ih allowed.2 (List.forall_mem_cons.mp admitted).2

theorem AlongRun.invariant (keeps : ∀ state input, Holds state → Allowed state input →
      Holds (step state input)) :
    ∀ {inputs : List ι} {start : σ}, AlongRun step Allowed start inputs →
      Holds start → Holds (runFrom step start inputs) := by
  intro inputs
  induction inputs with
  | nil =>
    intro start _ holds
    exact holds
  | cons input rest ih =>
    intro start allowed holds
    exact ih allowed.2 (keeps start input holds allowed.1)

/-- What the invariant and the condition give for one step holds for every
step of an allowed run. -/
theorem AlongRun.of_invariant {Given : σ → ι → Prop}
    (keeps : ∀ state input, Holds state → Allowed state input → Holds (step state input))
    (gives : ∀ state input, Holds state → Allowed state input → Given state input) :
    ∀ {inputs : List ι} {start : σ}, AlongRun step Allowed start inputs →
      Holds start → AlongRun step Given start inputs := by
  intro inputs
  induction inputs with
  | nil =>
    intro start _ _
    trivial
  | cons input rest ih =>
    intro start allowed holds
    exact ⟨gives start input holds allowed.1, ih allowed.2 (keeps start input holds allowed.1)⟩

theorem AlongRun.simulates {step' : τ → ι → τ} {Related : σ → τ → Prop}
    (keeps : ∀ state state' input, Related state state' → Allowed state input →
        Related (step state input) (step' state' input)) :
    ∀ {inputs : List ι} {start : σ} {start' : τ},
      AlongRun step Allowed start inputs → Related start start' →
        Related (runFrom step start inputs) (runFrom step' start' inputs) := by
  intro inputs
  induction inputs with
  | nil =>
    intro start start' _ related
    exact related
  | cons input rest ih =>
    intro start start' allowed related
    exact ih allowed.2 (keeps start start' input related allowed.1)

end KnitOS.Lib
