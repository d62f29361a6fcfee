import GitRemoteObjectStore.Library.Pool

/-!
# Runs told step by step

Each step of a pool tells something: what its client learns from it.  A pool
refines an abstract state, which what is told turns, if each step turns the
abstraction of the shared state as it tells.  What every list of turns does
to the abstract state is then what the runs of the pool do.
-/

namespace CallProgram

variable {ι Op C : Type} {R : C → Type} {ε β σ τ α : Type}

/-- The abstract states after a list of turns. -/
inductive Turned
    (turns : α → τ → τ → Prop)
    (start : τ) : List α → τ → Prop where
  | nil : Turned turns start [] start
  | snoc {labels : List α} {label : α} {before after : τ}
      (earlier : Turned turns start labels before)
      (turned : turns label before after) :
      Turned turns start (labels ++ [label]) after

variable [DecidableEq ι]

/-- The runs of a pool, with what each step tells. -/
inductive System.Tells
    (system : System ι Op C R ε β σ)
    (condition : Pool ι Op C R ε β σ → Action ι Op → Prop)
    (told : Pool ι Op C R ε β σ → Action ι Op → α)
    (start : Pool ι Op C R ε β σ) :
    List α → Pool ι Op C R ε β σ → Prop where
  | nil : Tells system condition told start [] start
  | snoc {labels : List α} {pool next : Pool ι Op C R ε β σ}
      {action : Action ι Op}
      (earlier : Tells system condition told start labels pool)
      (allowed : condition pool action)
      (stepped : system.Step pool action next) :
      Tells system condition told start
        (labels ++ [told pool action]) next

variable
    {system : System ι Op C R ε β σ}
    {condition : Pool ι Op C R ε β σ → Action ι Op → Prop}
    {told : Pool ι Op C R ε β σ → Action ι Op → α}
    {start first pool : Pool ι Op C R ε β σ}
    {labels : List α}

/-- A told run is a run. -/
theorem System.Tells.reaches
    (before : system.Reaches condition start first)
    (tells : system.Tells condition told first labels pool) :
    system.Reaches condition start pool := by
  induction tells with
  | nil => exact before
  | snoc earlier allowed stepped hypothesis =>
      exact hypothesis.step allowed stepped

/-- A pool each of whose steps turns an abstraction refines it. -/
theorem System.Tells.turned
    {abstraction : σ → τ}
    {turns : α → τ → τ → Prop}
    (step :
      ∀ pool action next,
        system.Reaches condition start pool →
          condition pool action → system.Step pool action next →
            turns (told pool action) (abstraction pool.state)
              (abstraction next.state))
    (before : system.Reaches condition start first)
    (tells : system.Tells condition told first labels pool) :
    Turned turns (abstraction first.state) labels
      (abstraction pool.state) := by
  induction tells with
  | nil => exact .nil
  | snoc earlier allowed stepped hypothesis =>
      exact
        .snoc hypothesis
          (step _ _ _ (earlier.reaches before) allowed stepped)

/-! ## Executing a schedule -/

/-- Execute a schedule, with what its steps tell. -/
def System.tale?
    (system : System ι Op C R ε β σ)
    (condition : Pool ι Op C R ε β σ → Action ι Op → Prop)
    [∀ pool action, Decidable (condition pool action)]
    (told : Pool ι Op C R ε β σ → Action ι Op → α) :
    List (Action ι Op) → Pool ι Op C R ε β σ →
      Option (List α × Pool ι Op C R ε β σ)
  | [], pool => some ([], pool)
  | action :: rest, pool =>
      if condition pool action then
        (system.step? pool action).bind fun next =>
          (system.tale? condition told rest next).map fun ended =>
            (told pool action :: ended.1, ended.2)
      else none

/-- What a schedule executes to is told. -/
theorem System.Tells.tale
    [∀ pool action, Decidable (condition pool action)]
    (before : system.Tells condition told start labels first)
    {actions : List (Action ι Op)}
    {more : List α}
    (executed :
      system.tale? condition told actions first = some (more, pool)) :
    system.Tells condition told start (labels ++ more) pool := by
  induction actions generalizing first labels more with
  | nil =>
      cases executed
      rw [List.append_nil]
      exact before
  | cons action rest hypothesis =>
      simp only [tale?] at executed
      split at executed
      next allowed =>
          rcases Option.bind_eq_some_iff.1 executed with
            ⟨next, stepped, remaining⟩
          rcases Option.map_eq_some_iff.1 remaining with
            ⟨⟨ended, last⟩, following, same⟩
          cases same
          have one :=
            hypothesis
              (before.snoc allowed (step_of_step? stepped)) following
          rw [List.append_assoc] at one
          exact one
      next => cases executed

end CallProgram
