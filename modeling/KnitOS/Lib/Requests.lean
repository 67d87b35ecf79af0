import KnitOS.Lib.Program

/-!
# Programs that only make some requests

`Confined Allowed program` says that every request of a program, whatever the
responses are, is one of the allowed ones.  It is a class: instances take a
program apart, so that most functions inherit it from the functions they call.
-/

namespace KnitOS.Lib.Program

variable {σ ρ τ α β δ : Type}

/-- Every request of a program is allowed. -/
def Requests (Allowed : ρ → Prop) : Program σ ρ τ α → Prop
  | done _ => True
  | get next => ∀ state, (next state).Requests Allowed
  | put _ next => next.Requests Allowed
  | call message next =>
    Allowed message ∧ ∀ response, (next response).Requests Allowed

class Confined (Allowed : ρ → Prop) (program : Program σ ρ τ α) : Prop where
  requests : program.Requests Allowed

variable {Allowed : ρ → Prop}

theorem Requests.andThen {program : Program σ ρ τ α}
    {next : Option α → Program σ ρ τ β} (first : program.Requests Allowed)
    (then_ : ∀ outcome, (next outcome).Requests Allowed) :
    (program.andThen next).Requests Allowed := by
  induction program with
  | done outcome => exact then_ outcome
  | get rest ih =>
    intro state
    exact ih state (first state)
  | put state rest ih => exact ih first
  | call message rest ih =>
    exact ⟨first.1, fun response =>
      ih response (first.2 response)⟩

instance confined_pure (value : α) : Confined Allowed (pure value : Program σ ρ τ α) :=
  ⟨trivial⟩

instance confined_fail : Confined Allowed (fail : Program σ ρ τ α) :=
  ⟨trivial⟩

instance confined_reads (field : σ → α) : Confined Allowed (reads field : Program σ ρ τ α) :=
  ⟨fun _ => trivial⟩

instance confined_modify (update : σ → σ) : Confined Allowed (modify update : Program σ ρ τ Unit) :=
  ⟨fun _ => trivial⟩

theorem confined_request {message : ρ} (allowed : Allowed message) :
    Confined Allowed (request message : Program σ ρ τ τ) := ⟨allowed, fun _ => trivial⟩

theorem Confined.bind {program : Program σ ρ τ α}
    {next : α → Program σ ρ τ β} (first : Confined Allowed program)
    (then_ : ∀ value, Confined Allowed (next value)) : Confined Allowed (program >>= next) := by
  refine ⟨first.requests.andThen ?_⟩
  intro outcome
  cases outcome with
  | none => trivial
  | some value => exact (then_ value).requests

instance confined_bind (program : Program σ ρ τ α)
    (next : α → Program σ ρ τ β) [Confined Allowed program]
    [∀ value, Confined Allowed (next value)] : Confined Allowed (program >>= next) :=
  Confined.bind inferInstance inferInstance

instance confined_ite (condition : Prop) [Decidable condition]
    (first second : Program σ ρ τ α) [onTrue : Confined Allowed first]
    [onFalse : Confined Allowed second] :
    Confined Allowed (if condition then first else second) := by
  split
  · exact onTrue
  · exact onFalse

instance confined_require (condition : Prop) [Decidable condition] :
    Confined Allowed (require condition : Program σ ρ τ Unit) := by
  unfold require
  infer_instance

instance confined_whenever (condition : Prop) [Decidable condition]
    (program : Program σ ρ τ Unit) [Confined Allowed program] :
    Confined Allowed (whenever condition program) := by
  unfold whenever
  infer_instance

instance confined_attempt (program : Program σ ρ τ α) [first : Confined Allowed program] :
    Confined Allowed (attempt program) :=
  ⟨first.requests.andThen fun _ => trivial⟩

instance confined_forRange (body : Nat → Program σ ρ τ Unit)
    [∀ index, Confined Allowed (body index)] (start count : Nat) :
    Confined Allowed (forRange body start count) := by
  induction count generalizing start with
  | zero =>
    exact confined_pure ()
  | succ count ih =>
    unfold forRange
    infer_instance

theorem run_keeps {device : Device δ ρ τ} {Good : δ → Prop}
    (keeps : ∀ message dev, Allowed message → Good dev → Good (device message dev).2)
    (program : Program σ ρ τ α) [confined : Confined Allowed program]
    (state : σ) {dev : δ} (good : Good dev) : Good (program.run device state dev).2.2 := by
  have requests := confined.requests
  clear confined
  induction program generalizing state dev with
  | done outcome => exact good
  | get next ih =>
    exact ih state state good (requests state)
  | put stored next ih =>
    exact ih stored good requests
  | call message next ih =>
    exact ih _ state (keeps message dev requests.1 good) (requests.2 _)

end KnitOS.Lib.Program
