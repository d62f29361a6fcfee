import Mathlib.Data.Option.Basic

/-!
# Runs of a partial step function

A machine makes a step for an action where it can.  `Reaches` are its runs
all of whose steps meet a condition; an invariant that the allowed steps
preserve holds in every state reached.
-/

namespace CallProgram

variable {σ α : Type}

/-- What an action does to a state, where it is possible. -/
abbrev Machine (σ α : Type) : Type :=
  σ → α → Option σ

namespace Machine

/-- The states reached by possible steps that all meet a condition. -/
inductive Reaches
    (machine : Machine σ α)
    (condition : σ → α → Prop)
    (start : σ) : σ → Prop where
  | refl : Reaches machine condition start start
  | step {state next : σ} {action : α}
      (before : Reaches machine condition start state)
      (allowed : condition state action)
      (stepped : machine state action = some next) :
      Reaches machine condition start next

variable
    {machine : Machine σ α}
    {condition : σ → α → Prop}
    {start : σ}

/-- What every allowed step preserves holds in every state reached. -/
theorem Reaches.invariant
    {invariant : σ → Prop}
    (initial : invariant start)
    (preserved :
      ∀ state action next,
        invariant state → condition state action →
          machine state action = some next → invariant next)
    {state : σ}
    (reached : machine.Reaches condition start state) :
    invariant state := by
  induction reached with
  | refl => exact initial
  | step before allowed stepped hypothesis =>
      exact preserved _ _ _ hypothesis allowed stepped

/-- Make the steps of a list of actions, checking a condition. -/
def execute?
    (machine : Machine σ α)
    (condition : σ → α → Prop)
    [∀ state action, Decidable (condition state action)] :
    List α → σ → Option σ
  | [], state => some state
  | action :: rest, state =>
      if condition state action then
        (machine state action).bind (execute? machine condition rest)
      else none

/-- What a list of actions executes to is reached. -/
theorem Reaches.execute
    [∀ state action, Decidable (condition state action)]
    {state last : σ}
    (before : machine.Reaches condition start state)
    {actions : List α}
    (executed : machine.execute? condition actions state = some last) :
    machine.Reaches condition start last := by
  induction actions generalizing state with
  | nil =>
      cases executed
      exact before
  | cons action rest hypothesis =>
      simp only [execute?] at executed
      split at executed
      next allowed =>
          rcases Option.bind_eq_some_iff.1 executed with
            ⟨middle, stepped, remaining⟩
          exact hypothesis (before.step allowed stepped) remaining
      next => cases executed

end Machine

end CallProgram
