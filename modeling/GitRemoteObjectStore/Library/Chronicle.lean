import GitRemoteObjectStore.Library.Pool

/-!
# Recorded histories

A chronicle keeps, beside the shared state, every call made so far: who made
it and in which state.  What a call must be preceded by is then a property of
the record at the moment of the call, and what a client relies on is only
that the others add calls of their own.
-/

namespace CallProgram

open Prog

variable
    {ι Op C : Type}
    {R : C → Type}
    {ε α β σ : Type}

/-- A call, and the state it was made in. -/
structure Occurrence (ι C σ : Type) where
  client : ι
  request : C
  state : σ

/-- A state and the calls that led to it, the latest first. -/
structure Chronicle (ι C σ : Type) where
  state : σ
  past : List (Occurrence ι C σ)

namespace Chronicle

/-- The handler that records the calls of a client. -/
def recording
    (handler : Handler C R σ)
    (client : ι) : Handler C R (Chronicle ι C σ) :=
  fun request chronicle =>
    ((handler request chronicle.state).1,
      ⟨(handler request chronicle.state).2,
        ⟨client, request, chronicle.state⟩ :: chronicle.past⟩)

/-- Meanwhile others have called. -/
def Continues
    (client : ι)
    (before after : Chronicle ι C σ) : Prop :=
  ∃ calls,
    after.past = calls ++ before.past ∧
      ∀ call ∈ calls, call.client ≠ client

theorem Continues.refl (client : ι) (chronicle : Chronicle ι C σ) :
    chronicle.Continues client chronicle :=
  ⟨[], rfl, fun _ member => absurd member List.not_mem_nil⟩

theorem Continues.trans
    {client : ι}
    {first second third : Chronicle ι C σ}
    (left : first.Continues client second)
    (right : second.Continues client third) :
    first.Continues client third := by
  rcases left with ⟨earlier, before, apart⟩
  rcases right with ⟨later, after, aside⟩
  refine ⟨later ++ earlier, ?_, ?_⟩
  · rw [after, before, List.append_assoc]
  · intro call member
    rcases List.mem_append.1 member with late | early
    · exact aside call late
    · exact apart call early

/-- One more call is recorded. -/
def Adds
    (client : ι)
    (before after : Chronicle ι C σ) : Prop :=
  ∃ request, after.past = ⟨client, request, before.state⟩ :: before.past

theorem Adds.continues
    {client other : ι}
    {before after : Chronicle ι C σ}
    (adds : before.Adds client after)
    (different : other ≠ client) :
    before.Continues other after := by
  rcases adds with ⟨request, past⟩
  refine ⟨[⟨client, request, before.state⟩], past, ?_⟩
  intro call member
  rw [List.mem_singleton.1 member]
  exact different.symm

/-- Every recorded call was good when it was made. -/
def Justified
    (good : Occurrence ι C σ → List (Occurrence ι C σ) → Prop) :
    List (Occurrence ι C σ) → Prop
  | [] => True
  | latest :: older => good latest older ∧ Justified good older

theorem Justified.good
    {good : Occurrence ι C σ → List (Occurrence ι C σ) → Prop}
    {newer older : List (Occurrence ι C σ)}
    {call : Occurrence ι C σ}
    (justified : Justified good (newer ++ call :: older)) :
    good call older := by
  induction newer with
  | nil => exact justified.1
  | cons latest rest hypothesis => exact hypothesis justified.2

/-- Every moment of a chronicle satisfies an invariant. -/
def Always
    (invariant : σ → Prop)
    (chronicle : Chronicle ι C σ) : Prop :=
  invariant chronicle.state ∧
    ∀ call ∈ chronicle.past, invariant call.state

/--
The contract of clients whose every moment satisfies an invariant and whose
every call is good when made.
-/
def discipline
    (invariant : σ → Prop)
    (good : Occurrence ι C σ → List (Occurrence ι C σ) → Prop) :
    Discipline ι Op C (Chronicle ι C σ) where
  invariant := fun chronicle =>
    chronicle.Always invariant ∧ Justified good chronicle.past
  met := fun _ _ _ _ => True
  freeRely := Continues
  heldRely := Continues
  freeStep := fun client _ => Adds client
  heldStep := fun client _ => Adds client
  freeRely_refl := Continues.refl
  freeRely_trans := fun _ _ _ _ left right => left.trans right
  heldRely_refl := Continues.refl
  heldRely_trans := fun _ _ _ _ left right => left.trans right
  free_of_freeStep := fun _ _ _ _ _ different adds =>
    adds.continues different
  held_of_freeStep := fun _ _ _ _ _ different adds =>
    adds.continues different
  free_of_heldStep := fun _ _ _ _ _ different adds =>
    adds.continues different

section Discipline

variable
    {invariant : σ → Prop}
    {good : Occurrence ι C σ → List (Occurrence ι C σ) → Prop}
    {handler : Handler C R σ}
    {client : ι}
    {operation : Op}

/-- A call that is good when made may be made. -/
theorem safe_call
    {post : Except ε α → Chronicle ι C σ → Prop}
    {request : C}
    {next : R request → Prog C R ε α}
    {chronicle : Chronicle ι C σ}
    (keeps :
      ∀ state, invariant state → invariant (handler request state).2)
    (justified :
      ∀ later, chronicle.Continues client later →
        good ⟨client, request, later.state⟩ later.past)
    (resume :
      ∀ later, chronicle.Continues client later →
        Safe ((discipline invariant good).free client operation)
          (recording handler client) post
          (next (handler request later.state).1)
          ⟨(handler request later.state).2,
            ⟨client, request, later.state⟩ :: later.past⟩) :
    Safe ((discipline invariant good).free client operation)
      (recording handler client) post (.call request next) chronicle := by
  rintro later changed ⟨⟨holds, always⟩, made⟩ -
  refine
    ⟨⟨⟨⟨keeps _ holds, ?_⟩, justified later changed, made⟩, request, rfl⟩,
      resume later changed⟩
  intro call member
  rcases List.mem_cons.1 member with rfl | earlier
  · exact holds
  · exact always call earlier

/-- Programs all of whose calls are good whenever made. -/
theorem safe_issues
    {credible : (request : C) → R request → Prop}
    {allowed : C → Prop}
    (replies :
      ∀ request state, credible request (handler request state).1)
    (keeps :
      ∀ request state,
        allowed request → invariant state →
          invariant (handler request state).2)
    (justified :
      ∀ request state older,
        allowed request → good ⟨client, request, state⟩ older)
    {program : Prog C R ε α}
    (issues : Issues credible allowed program)
    (chronicle : Chronicle ι C σ) :
    Safe ((discipline invariant good).free client operation)
      (recording handler client) (fun _ _ => True) program chronicle := by
  induction program generalizing chronicle with
  | done value => exact fun _ _ _ => trivial
  | fail error => exact fun _ _ _ => trivial
  | call request next hypothesis =>
      apply safe_call
      · exact fun state => keeps request state issues.1
      · exact fun later _ => justified request _ _ issues.1
      · exact fun later _ =>
          hypothesis _ (issues.2 _ (replies request later.state)) _

end Discipline

end Chronicle

end CallProgram
