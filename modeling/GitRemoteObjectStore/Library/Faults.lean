import GitRemoteObjectStore.Library.Contract

/-!
# Failing calls and stopped programs

A plan says which calls of a run fail, with which error, and whether a
failing call takes effect all the same: a reply may be lost as well as a
request.  A program under a plan may also stop after any number of calls.
What is safe under a contract that nobody else interferes with holds at each
of these points.
-/

namespace CallProgram

variable
    {C : Type}
    {R : C → Type}
    {E ε α β σ : Type}

/-- A failing call: what is reported, and whether it has an effect. -/
structure Fault (E : Type) where
  error : E
  lands : Bool

/-- Which calls fail, by their number in the run. -/
abbrev FaultPlan (C E : Type) : Type :=
  Nat → C → Option (Fault E)

namespace Prog

/--
The handler under a plan.  Calls that `broken` has no answer for cannot fail.
-/
def faulty
    (handler : Handler C R σ)
    (broken : E → (request : C) → Option (R request))
    (plan : FaultPlan C E) : Handler C R (σ × Nat) :=
  fun request state =>
    match plan state.2 request with
    | none =>
        ((handler request state.1).1,
          ((handler request state.1).2, state.2 + 1))
    | some fault =>
        match broken fault.error request with
        | none =>
            ((handler request state.1).1,
              ((handler request state.1).2, state.2 + 1))
        | some reply =>
            (reply,
              (if fault.lands then (handler request state.1).2
                else state.1,
                state.2 + 1))

section Faulty

variable
    {handler : Handler C R σ}
    {broken : E → (request : C) → Option (R request)}
    {plan : FaultPlan C E}

/-- A call under a plan is answered, or fails with or without effect. -/
theorem faulty_cases (request : C) (state : σ) (count : Nat) :
    faulty handler broken plan request (state, count) =
        ((handler request state).1,
          ((handler request state).2, count + 1)) ∨
      ∃ fault reply later,
        plan count request = some fault ∧
          broken fault.error request = some reply ∧
          (later = state ∨ later = (handler request state).2) ∧
          faulty handler broken plan request (state, count) =
            (reply, (later, count + 1)) := by
  unfold faulty
  cases planned : plan count request with
  | none => exact Or.inl rfl
  | some fault =>
      cases answered : broken fault.error request with
      | none =>
          left
          simp only [answered]
      | some reply =>
          right
          refine ⟨fault, reply, _, rfl, answered, ?_, by simp only [answered]; rfl⟩
          cases fault.lands with
          | true => exact Or.inr rfl
          | false => exact Or.inl rfl

/-- A call that is not planned to fail is answered. -/
theorem faulty_none
    {request : C}
    {state : σ × Nat}
    (spared : plan state.2 request = none) :
    faulty handler broken plan request state =
      ((handler request state.1).1,
        ((handler request state.1).2, state.2 + 1)) := by
  unfold faulty
  rw [spared]

/-- Programs none of whose calls are planned to fail run as without faults. -/
theorem run_faulty_of_issues
    {credible : (request : C) → R request → Prop}
    {allowed : C → Prop}
    (replies :
      ∀ request state, credible request (handler request state).1)
    (spared :
      ∀ count request, allowed request → plan count request = none)
    {program : Prog C R ε α}
    (issues : Issues credible allowed program)
    (state : σ)
    (count : Nat) :
    ∃ later,
      run (faulty handler broken plan) program (state, count) =
          ((run handler program state).1,
            ((run handler program state).2, later)) ∧
        ∀ request ∈
            issued (faulty handler broken plan) program (state, count),
          allowed request := by
  induction program generalizing state count with
  | done value => exact ⟨count, rfl, by simp [issued]⟩
  | fail error => exact ⟨count, rfl, by simp [issued]⟩
  | call request next hypothesis =>
      have answered :=
        @faulty_none _ _ _ _ handler broken plan request (state, count)
          (spared count request issues.1)
      rcases
        hypothesis _ (issues.2 _ (replies request state))
          (handler request state).2 (count + 1) with
        ⟨later, ran, allowing⟩
      refine ⟨later, ?_, ?_⟩
      · rw [run_call, answered]
        exact ran
      · rw [issued, answered, List.forall_mem_cons]
        exact ⟨issues.1, allowing⟩

end Faulty

/-! ## Stopping -/

/-- A safe program left alone keeps the invariant wherever it stops. -/
theorem Safe.throughout
    {contract : Contract C σ}
    {handler : Handler C R σ}
    {post : Except ε α → σ → Prop}
    (always : ∀ request state, contract.met request state)
    {program : Prog C R ε α}
    {state : σ}
    (safe : Safe contract handler post program state)
    (invariant : contract.invariant state)
    (count : Nat) :
    contract.invariant (stateAfter handler count program state) := by
  induction count generalizing program state with
  | zero =>
      rw [stateAfter_zero]
      exact invariant
  | succ count hypothesis =>
      cases program with
      | done value => exact invariant
      | fail error => exact invariant
      | call request next =>
          rcases
            safe state (contract.rely_refl state) invariant
              (always request state) with ⟨kept, rest⟩
          exact hypothesis rest kept.1

/-- What allowed calls keep holds wherever a program stops. -/
theorem Issues.kept_stateAfter
    {credible : (request : C) → R request → Prop}
    {allowed : C → Prop}
    {handler : Handler C R σ}
    {keeps : σ → Prop}
    (replies :
      ∀ request state,
        keeps state → credible request (handler request state).1)
    (step :
      ∀ request state,
        allowed request → keeps state → keeps (handler request state).2)
    {program : Prog C R ε α}
    (issues : Issues credible allowed program)
    {state : σ}
    (holds : keeps state)
    (count : Nat) :
    keeps (stateAfter handler count program state) := by
  induction count generalizing program state with
  | zero =>
      rw [stateAfter_zero]
      exact holds
  | succ count hypothesis =>
      cases program with
      | done value => exact holds
      | fail error => exact holds
      | call request next =>
          exact
            hypothesis (issues.2 _ (replies request state holds))
              (step request state issues.1 holds)

/-- What a call under a plan may do to a program nobody interferes with. -/
theorem safe_faulty
    {handler : Handler C R σ}
    {broken : E → (request : C) → Option (R request)}
    {plan : FaultPlan C E}
    {invariant : σ → Prop}
    {post : Except ε α → σ × Nat → Prop}
    {request : C}
    {next : R request → Prog C R ε α}
    {state : σ}
    {count : Nat}
    (answered :
      invariant state →
        invariant (handler request state).2 ∧
          Safe (.alone fun state : σ × Nat => invariant state.1)
            (faulty handler broken plan) post
            (next (handler request state).1)
            ((handler request state).2, count + 1))
    (failing :
      ∀ fault reply later,
        plan count request = some fault →
          broken fault.error request = some reply →
            later = state ∨ later = (handler request state).2 →
              invariant state → invariant later →
                Safe (.alone fun state : σ × Nat => invariant state.1)
                  (faulty handler broken plan) post (next reply)
                  (later, count + 1)) :
    Safe (.alone fun state : σ × Nat => invariant state.1)
      (faulty handler broken plan) post (.call request next)
      (state, count) := by
  rintro _ rfl holds -
  rcases answered holds with ⟨kept, resume⟩
  rcases @faulty_cases _ _ _ _ handler broken plan request state count with
    same | ⟨fault, reply, later, planned, broke, effect, same⟩
  · rw [same]
    exact ⟨⟨kept, trivial⟩, resume⟩
  · have after : invariant later := by
      rcases effect with rfl | rfl
      · exact holds
      · exact kept
    rw [same]
    exact
      ⟨⟨after, trivial⟩,
        failing fault reply later planned broke effect holds after⟩

end Prog

end CallProgram
