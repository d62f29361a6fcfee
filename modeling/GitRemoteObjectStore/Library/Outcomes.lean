import Mathlib.Algebra.GroupWithZero.Nat
import GitRemoteObjectStore.Library.CallProgram

/-!
# Outcomes and costs of programs nobody can be trusted to answer

Whatever a program's calls are answered with, each of its outcomes is as a
postcondition says, the calls on the way cost no more than a budget, and a
success is reached along one of its paths.  The rules follow the
constructions of `Prog`; a run under any handler is one of the ways in which
the calls may be answered.
-/

namespace CallProgram

namespace Prog

variable
    {C : Type}
    {R : C → Type}
    {ε ε' α β γ σ : Type}

/-! ## Outcomes -/

/-- Every outcome satisfies the postcondition. -/
def Ends (post : Except ε α → Prop) : Prog C R ε α → Prop
  | .done value => post (.ok value)
  | .fail error => post (.error error)
  | .call _ next => ∀ reply, Ends post (next reply)

section Ends

variable {post : Except ε α → Prop}

theorem ends_ofExcept
    {outcome : Except ε α}
    (holds : post outcome) :
    Ends post (ofExcept outcome : Prog C R ε α) := by
  cases outcome with
  | ok value => exact holds
  | error error => exact holds

theorem Ends.weaken
    {first : Except ε α → Prop}
    {program : Prog C R ε α}
    (ends : Ends first program)
    (implies : ∀ outcome, first outcome → post outcome) :
    Ends post program := by
  induction program with
  | done value => exact implies _ ends
  | fail error => exact implies _ ends
  | call request next hypothesis =>
      intro reply
      exact hypothesis reply (ends reply)

theorem Ends.bind
    {first : Except ε β → Prop}
    {program : Prog C R ε β}
    {next : β → Prog C R ε α}
    (ends : Ends first program)
    (resume : ∀ value, first (.ok value) → Ends post (next value))
    (stop : ∀ error, first (.error error) → post (.error error)) :
    Ends post (program >>= next) := by
  induction program with
  | done value => exact resume value ends
  | fail error => exact stop error ends
  | call request rest hypothesis =>
      intro reply
      exact hypothesis reply (ends reply)

theorem Ends.mapError
    {convert : ε' → ε}
    {program : Prog C R ε' α}
    (ends : Ends (fun outcome => post (outcome.mapError convert)) program) :
    Ends post (program.mapError convert) := by
  induction program with
  | done value => exact ends
  | fail error => exact ends
  | call request next hypothesis =>
      intro reply
      exact hypothesis reply (ends reply)

theorem Ends.attempt
    {first : Except ε' α → Prop}
    {program : Prog C R ε' α}
    {last : Except ε (Except ε' α) → Prop}
    (ends : Ends first program)
    (implies : ∀ outcome, first outcome → last (.ok outcome)) :
    Ends last (program.attempt : Prog C R ε (Except ε' α)) := by
  induction program with
  | done value => exact implies _ ends
  | fail error => exact implies _ ends
  | call request next hypothesis =>
      intro reply
      exact hypothesis reply (ends reply)

theorem ends_any (program : Prog C R ε α) :
    Ends (fun _ => True) program := by
  induction program with
  | done value => trivial
  | fail error => trivial
  | call request next hypothesis => exact hypothesis

/-- A run is one of the ways to answer the calls. -/
theorem Ends.run
    {program : Prog C R ε α}
    (ends : Ends post program)
    (handler : Handler C R σ)
    (state : σ) :
    post (run handler program state).1 := by
  induction program generalizing state with
  | done value => exact ends
  | fail error => exact ends
  | call request next hypothesis => exact hypothesis _ (ends _) _

end Ends

/-- What a sequence that succeeds went through. -/
theorem run_bind_eq_ok
    {handler : Handler C R σ}
    {program : Prog C R ε β}
    {next : β → Prog C R ε α}
    {state : σ}
    {value : α}
    (ran : (run handler (program >>= next) state).1 = .ok value) :
    ∃ first middle,
      run handler program state = (.ok first, middle) ∧
        (run handler (next first) middle).1 = .ok value := by
  rw [run_bind] at ran
  split at ran
  next first middle begun => exact ⟨first, middle, begun, ran⟩
  next error middle begun => cases ran

/-! ## Successful paths -/

/-- Some answers lead to a value, the calls on the way being these. -/
def Succeeds : Prog C R ε α → List C → α → Prop
  | .done value, calls, found => calls = [] ∧ found = value
  | .fail _, _, _ => False
  | .call request next, calls, found =>
      ∃ reply rest, calls = request :: rest ∧ Succeeds (next reply) rest found

@[simp]
theorem succeeds_done {value found : α} {calls : List C} :
    Succeeds (.done value : Prog C R ε α) calls found ↔
      calls = [] ∧ found = value :=
  Iff.rfl

@[simp]
theorem succeeds_fail {error : ε} {calls : List C} {found : α} :
    ¬Succeeds (.fail error : Prog C R ε α) calls found :=
  id

/-- A sequence succeeds along a path of each of its parts. -/
theorem succeeds_bind
    {program : Prog C R ε β}
    {next : β → Prog C R ε α}
    {calls : List C}
    {found : α} :
    Succeeds (program >>= next) calls found ↔
      ∃ first second value,
        calls = first ++ second ∧
          Succeeds program first value ∧
            Succeeds (next value) second found := by
  induction program generalizing calls with
  | done value =>
      constructor
      · intro path
        exact ⟨[], calls, value, rfl, ⟨rfl, rfl⟩, path⟩
      · rintro ⟨_, second, _, rfl, ⟨rfl, rfl⟩, path⟩
        exact path
  | fail error =>
      constructor
      · intro path
        exact path.elim
      · rintro ⟨_, _, _, _, path, _⟩
        exact path.elim
  | call request rest hypothesis =>
      constructor
      · rintro ⟨reply, later, rfl, path⟩
        rcases (hypothesis reply).1 path with
          ⟨first, second, value, rfl, begun, ended⟩
        exact
          ⟨request :: first, second, value, rfl,
            ⟨reply, first, rfl, begun⟩, ended⟩
      · rintro ⟨_, second, value, rfl, ⟨reply, first, rfl, begun⟩, ended⟩
        exact
          ⟨reply, first ++ second, rfl,
            (hypothesis reply).2 ⟨first, second, value, rfl, begun, ended⟩⟩

/-- A run that succeeds is such a path. -/
theorem Succeeds.of_run
    {handler : Handler C R σ}
    {program : Prog C R ε α}
    {state last : σ}
    {value : α}
    (ran : run handler program state = (.ok value, last)) :
    Succeeds program (issued handler program state) value := by
  induction program generalizing state with
  | done found =>
      cases ran
      exact ⟨rfl, rfl⟩
  | fail error => cases ran
  | call request next hypothesis =>
      exact ⟨_, _, rfl, hypothesis _ ran⟩

/-- What a program issues only, every path of it consists of. -/
theorem Issues.succeeds
    {allowed : C → Prop}
    {program : Prog C R ε α}
    (issues : Issues (fun _ _ => True) allowed program)
    {calls : List C}
    {value : α}
    (path : Succeeds program calls value) :
    ∀ call ∈ calls, allowed call := by
  induction program generalizing calls with
  | done found =>
      rw [path.1]
      simp
  | fail error => exact path.elim
  | call request next hypothesis =>
      rcases path with ⟨reply, rest, rfl, later⟩
      intro call member
      rcases List.mem_cons.1 member with rfl | member
      · exact issues.1
      · exact hypothesis reply (issues.2 reply trivial) later call member

/-! ## Results of runs -/

section Results

variable {credible : (request : C) → R request → Prop}

theorem returns_ofExcept
    {good : α → Prop}
    {outcome : Except ε α}
    (holds : ∀ value, outcome = .ok value → good value) :
    Returns credible good (ofExcept outcome : Prog C R ε α) := by
  cases outcome with
  | ok value => exact holds value rfl
  | error error => trivial

theorem Returns.weaken
    {good last : α → Prop}
    {program : Prog C R ε α}
    (returns : Returns credible good program)
    (implies : ∀ value, good value → last value) :
    Returns credible last program := by
  induction program with
  | done value => exact implies value returns
  | fail error => trivial
  | call request next hypothesis =>
      exact fun reply likely => hypothesis reply (returns reply likely)

theorem Returns.attempt
    {good : α → Prop}
    {last : Except ε α → Prop}
    {program : Prog C R ε α}
    (returns : Returns credible good program)
    (holds : ∀ value, good value → last (.ok value))
    (fails : ∀ error, last (.error error)) :
    Returns credible last
      (program.attempt : Prog C R ε' (Except ε α)) := by
  induction program with
  | done value => exact holds value returns
  | fail error => exact fails error
  | call request next hypothesis =>
      exact fun reply likely => hypothesis reply (returns reply likely)

/-- What no call can bring about, a run starts with if it ends with it. -/
theorem run_backwards
    {handler : Handler C R σ}
    {keeps : σ → Prop}
    (backwards :
      ∀ request state, keeps (handler request state).2 → keeps state)
    (program : Prog C R ε α)
    {state : σ}
    (kept : keeps (run handler program state).2) :
    keeps state := by
  induction program generalizing state with
  | done value => exact kept
  | fail error => exact kept
  | call request next hypothesis =>
      exact backwards request state (hypothesis _ kept)

/--
A successful run returns a good result if the replies are credible in the
light of the state it ends in.
-/
theorem Returns.run_within
    {handler : Handler C R σ}
    (keeps : σ → Prop)
    (backwards :
      ∀ request state, keeps (handler request state).2 → keeps state)
    (replies :
      ∀ request state,
        keeps (handler request state).2 →
          credible request (handler request state).1)
    {good : α → Prop}
    {program : Prog C R ε α}
    (returns : Returns credible good program)
    {state : σ}
    {value : α}
    (succeeds : (Prog.run handler program state).1 = .ok value)
    (kept : keeps (Prog.run handler program state).2) :
    good value := by
  induction program generalizing state with
  | done result =>
      cases succeeds
      exact returns
  | fail error => cases succeeds
  | call request next hypothesis =>
      have first : keeps (handler request state).2 :=
        run_backwards backwards _ kept
      exact
        hypothesis _ (returns _ (replies request state first)) succeeds kept

end Results

/-! ## Costs -/

/-- The calls on every path cost no more than the budget. -/
def Costs (cost : C → Nat) : Nat → Prog C R ε α → Prop
  | _, .done _ => True
  | _, .fail _ => True
  | budget, .call request next =>
      cost request ≤ budget ∧
        ∀ reply, Costs cost (budget - cost request) (next reply)

section Costs

variable {cost : C → Nat}

theorem costs_ofExcept
    (budget : Nat)
    (outcome : Except ε α) :
    Costs cost budget (ofExcept outcome : Prog C R ε α) := by
  cases outcome <;> trivial

theorem Costs.weaken
    {program : Prog C R ε α}
    {budget more : Nat}
    (costs : Costs cost budget program)
    (enough : budget ≤ more) :
    Costs cost more program := by
  induction program generalizing budget more with
  | done value => trivial
  | fail error => trivial
  | call request next hypothesis =>
      rcases costs with ⟨paid, rest⟩
      exact
        ⟨Nat.le_trans paid enough, fun reply =>
          hypothesis reply (rest reply) (Nat.sub_le_sub_right enough _)⟩

theorem Costs.bind
    {program : Prog C R ε β}
    {next : β → Prog C R ε α}
    {first second : Nat}
    (begins : Costs cost first program)
    (continues : ∀ value, Costs cost second (next value)) :
    Costs cost (first + second) (program >>= next) := by
  induction program generalizing first with
  | done value =>
      exact (continues value).weaken (Nat.le_add_left second first)
  | fail error => trivial
  | call request rest hypothesis =>
      rcases begins with ⟨paid, remaining⟩
      refine ⟨Nat.le_trans paid (Nat.le_add_right first second), ?_⟩
      intro reply
      have left :
          first + second - cost request =
            first - cost request + second := by
        omega
      rw [left]
      exact hypothesis reply (remaining reply)

/-- The form of `Costs.bind` after a program that costs nothing. -/
theorem Costs.after
    {program : Prog C R ε β}
    {next : β → Prog C R ε α}
    {budget : Nat}
    (begins : Costs cost 0 program)
    (continues : ∀ value, Costs cost budget (next value)) :
    Costs cost budget (program >>= next) := by
  have both := begins.bind continues
  rwa [Nat.zero_add] at both

/-- The form of `Costs.bind` before a program that costs nothing. -/
theorem Costs.before
    {program : Prog C R ε β}
    {next : β → Prog C R ε α}
    {budget : Nat}
    (begins : Costs cost budget program)
    (continues : ∀ value, Costs cost 0 (next value)) :
    Costs cost budget (program >>= next) :=
  begins.bind continues

theorem Costs.mapError
    {convert : ε' → ε}
    {program : Prog C R ε' α}
    {budget : Nat}
    (costs : Costs cost budget program) :
    Costs cost budget (program.mapError convert) := by
  induction program generalizing budget with
  | done value => trivial
  | fail error => trivial
  | call request next hypothesis =>
      exact ⟨costs.1, fun reply => hypothesis reply (costs.2 reply)⟩

theorem Costs.attempt
    {program : Prog C R ε' α}
    {budget : Nat}
    (costs : Costs cost budget program) :
    Costs cost budget
      (program.attempt : Prog C R ε (Except ε' α)) := by
  induction program generalizing budget with
  | done value => trivial
  | fail error => trivial
  | call request next hypothesis =>
      exact ⟨costs.1, fun reply => hypothesis reply (costs.2 reply)⟩

/-- What the calls of a run cost. -/
theorem Costs.issued
    {program : Prog C R ε α}
    {budget : Nat}
    (costs : Costs cost budget program)
    (handler : Handler C R σ)
    (state : σ) :
    ((issued handler program state).map cost).sum ≤ budget := by
  induction program generalizing budget state with
  | done value => exact Nat.zero_le budget
  | fail error => exact Nat.zero_le budget
  | call request next hypothesis =>
      have rest :=
        hypothesis _ (costs.2 (handler request state).1)
          (handler request state).2
      have paid := costs.1
      change cost request + List.sum _ ≤ budget
      omega

end Costs

/-! ## Pauses -/

/-- One for each call of a kind. -/
def counting (kind : C → Bool) (request : C) : Nat :=
  if kind request then 1 else 0

/--
The program pauses no more often than it may, and the calls between two
pauses cost no more than the limit.  Until the first pause only the budget
is left.
-/
def Paced (cost : C → Nat) (pause : C → Bool) (limit : Nat) :
    Nat → Nat → Prog C R ε α → Prop
  | _, _, .done _ => True
  | _, _, .fail _ => True
  | pauses, budget, .call request next =>
      if pause request then
        0 < pauses ∧
          ∀ reply,
            Paced cost pause limit (pauses - 1) limit (next reply)
      else
        cost request ≤ budget ∧
          ∀ reply,
            Paced cost pause limit pauses (budget - cost request)
              (next reply)

section Paced

variable
    {cost : C → Nat}
    {pause : C → Bool}
    {limit : Nat}

theorem paced_call_pause
    {pauses budget : Nat}
    {request : C}
    (paused : pause request = true)
    {next : R request → Prog C R ε α}
    (continues :
      ∀ reply, Paced cost pause limit pauses limit (next reply)) :
    Paced cost pause limit (pauses + 1) budget (.call request next) := by
  unfold Paced
  rw [if_pos paused]
  exact ⟨Nat.succ_pos pauses, continues⟩

theorem Paced.weaken
    {program : Prog C R ε α}
    {pauses budget more : Nat}
    (paced : Paced cost pause limit pauses budget program)
    (enough : budget ≤ more) :
    Paced cost pause limit pauses more program := by
  induction program generalizing budget more with
  | done value => trivial
  | fail error => trivial
  | call request next hypothesis =>
      unfold Paced at paced ⊢
      split
      next paused =>
          rw [if_pos paused] at paced
          exact paced
      next going =>
          rw [if_neg going] at paced
          exact
            ⟨Nat.le_trans paced.1 enough, fun reply =>
              hypothesis reply (paced.2 reply)
                (Nat.sub_le_sub_right enough _)⟩

/-- Go on after a program that does not pause. -/
theorem Costs.paced
    {program : Prog C R ε β}
    {next : β → Prog C R ε α}
    {first second pauses : Nat}
    (costs : Costs cost first program)
    (steady : Costs (counting pause) 0 program)
    (continues :
      ∀ value, Paced cost pause limit pauses second (next value)) :
    Paced cost pause limit pauses (first + second) (program >>= next) := by
  induction program generalizing first with
  | done value =>
      exact (continues value).weaken (Nat.le_add_left second first)
  | fail error => trivial
  | call request rest hypothesis =>
      have going : pause request = false := by
        have none := steady.1
        unfold counting at none
        split at none
        · omega
        next going => simpa using going
      have left :
          first + second - cost request =
            first - cost request + second := by
        have paid := costs.1
        omega
      change Paced cost pause limit pauses (first + second) (.call _ _)
      unfold Paced
      rw [going, if_neg Bool.false_ne_true, left]
      refine
        ⟨Nat.le_trans costs.1 (Nat.le_add_right first second),
          fun reply => ?_⟩
      apply hypothesis reply (costs.2 reply)
      have after := steady.2 reply
      rwa [Nat.zero_sub] at after

/-- The form of `Costs.paced` for a program behind which all is free. -/
theorem Costs.pacedBefore
    {program : Prog C R ε β}
    {next : β → Prog C R ε α}
    {budget pauses : Nat}
    (costs : Costs cost budget program)
    (steady : Costs (counting pause) 0 program)
    (continues :
      ∀ value, Paced cost pause limit pauses 0 (next value)) :
    Paced cost pause limit pauses budget (program >>= next) :=
  costs.paced steady continues

/-- A program that neither costs anything nor pauses. -/
theorem Costs.toPaced
    {program : Prog C R ε α}
    (costs : Costs cost 0 program)
    (steady : Costs (counting pause) 0 program)
    (pauses budget : Nat) :
    Paced cost pause limit pauses budget program := by
  induction program generalizing pauses budget with
  | done value => trivial
  | fail error => trivial
  | call request next hypothesis =>
      have going : ¬ pause request = true := by
        have none := steady.1
        unfold counting at none
        split at none
        · omega
        next going => exact going
      have free := costs.1
      unfold Paced
      rw [if_neg going]
      refine ⟨by omega, fun reply => hypothesis reply ?_ ?_ _ _⟩
      · have after := costs.2 reply
        rwa [Nat.zero_sub] at after
      · have after := steady.2 reply
        rwa [Nat.zero_sub] at after

theorem Paced.attempt
    {program : Prog C R ε' α}
    {pauses budget : Nat}
    (paced : Paced cost pause limit pauses budget program) :
    Paced cost pause limit pauses budget
      (program.attempt : Prog C R ε (Except ε' α)) := by
  induction program generalizing pauses budget with
  | done value => trivial
  | fail error => trivial
  | call request next hypothesis =>
      change Paced cost pause limit pauses budget (.call _ _)
      unfold Paced at paced ⊢
      split
      next paused =>
          rw [if_pos paused] at paced
          exact ⟨paced.1, fun reply => hypothesis reply (paced.2 reply)⟩
      next going =>
          rw [if_neg going] at paced
          exact ⟨paced.1, fun reply => hypothesis reply (paced.2 reply)⟩

/-- Go on with a program that neither costs anything nor pauses. -/
theorem Paced.before
    {program : Prog C R ε β}
    {next : β → Prog C R ε α}
    {pauses budget : Nat}
    (paced : Paced cost pause limit pauses budget program)
    (costs : ∀ value, Costs cost 0 (next value))
    (steady : ∀ value, Costs (counting pause) 0 (next value)) :
    Paced cost pause limit pauses budget (program >>= next) := by
  induction program generalizing pauses budget with
  | done value => exact (costs value).toPaced (steady value) pauses budget
  | fail error => trivial
  | call request rest hypothesis =>
      change Paced cost pause limit pauses budget (.call _ _)
      unfold Paced at paced ⊢
      split
      next paused =>
          rw [if_pos paused] at paced
          exact ⟨paced.1, fun reply => hypothesis reply (paced.2 reply)⟩
      next going =>
          rw [if_neg going] at paced
          exact ⟨paced.1, fun reply => hypothesis reply (paced.2 reply)⟩

/-- The form of `Costs.paced` after a program that costs nothing. -/
theorem Paced.after
    {program : Prog C R ε β}
    {next : β → Prog C R ε α}
    {pauses budget : Nat}
    (costs : Costs cost 0 program)
    (steady : Costs (counting pause) 0 program)
    (continues :
      ∀ value, Paced cost pause limit pauses budget (next value)) :
    Paced cost pause limit pauses budget (program >>= next) := by
  have both := costs.paced steady continues
  rwa [Nat.zero_add] at both

/-- The calls of a run, taken apart at its pauses. -/
theorem Paced.issued
    {program : Prog C R ε α}
    {pauses budget : Nat}
    (paced : Paced cost pause limit pauses budget program)
    (handler : Handler C R σ)
    (state : σ) :
    ∃ first rest,
      (issued handler program state).splitOnP pause = first :: rest ∧
        (first.map cost).sum ≤ budget ∧
        rest.length ≤ pauses ∧
        ∀ stretch ∈ rest, (stretch.map cost).sum ≤ limit := by
  induction program generalizing pauses budget state with
  | done value =>
      exact ⟨[], [], List.splitOnP_nil, Nat.zero_le _, Nat.zero_le _, by simp⟩
  | fail error =>
      exact ⟨[], [], List.splitOnP_nil, Nat.zero_le _, Nat.zero_le _, by simp⟩
  | call request next hypothesis =>
      unfold Paced at paced
      change
        ∃ first rest,
          (request :: Prog.issued handler _ _).splitOnP pause =
            first :: rest ∧ _
      rw [List.splitOnP_cons_eq_if_modifyHead]
      split at paced
      next paused =>
          rcases
            hypothesis _ (paced.2 (handler request state).1)
              (handler request state).2 with
            ⟨first, rest, split, cheap, few, each⟩
          rw [if_pos paused, split]
          refine ⟨[], first :: rest, rfl, Nat.zero_le _, ?_, ?_⟩
          · have some := paced.1
            rw [List.length_cons]
            omega
          · exact List.forall_mem_cons.2 ⟨cheap, each⟩
      next going =>
          rcases
            hypothesis _ (paced.2 (handler request state).1)
              (handler request state).2 with
            ⟨first, rest, split, cheap, few, each⟩
          rw [if_neg going, split]
          refine ⟨request :: first, rest, rfl, ?_, few, each⟩
          have paid := paced.1
          rw [List.map_cons, List.sum_cons]
          omega

end Paced

end Prog

end CallProgram
