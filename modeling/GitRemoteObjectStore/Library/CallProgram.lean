import Mathlib.Logic.Basic
import Mathlib.Data.List.Basic

/-!
# Programs over a call interface

A program talks to its environment only by issuing calls and branching on
their replies.  It is a finite-depth tree: a leaf is a value or an error, an
inner node is one call with a continuation for each reply.  The same tree is
then read in several ways: run to the end against a handler, cut off after a
number of calls, run with one call failing, or interleaved with other
programs at the granularity of single calls.

The call interface, the error type and the state behind the handler are
parameters throughout.
-/

namespace CallProgram

variable
    {C : Type}
    {R : C → Type}
    {ε ε' α β γ σ : Type}

/--
A program issuing calls `c : C` answered by `R c`, ending in a value or in
an error.
-/
inductive Prog (C : Type) (R : C → Type) (ε α : Type) where
  | done (value : α)
  | fail (error : ε)
  | call (request : C) (next : R request → Prog C R ε α)

namespace Prog

/-- Sequencing: errors skip the continuation. -/
def bind :
    Prog C R ε α → (α → Prog C R ε β) → Prog C R ε β
  | .done value, next => next value
  | .fail error, _ => .fail error
  | .call request rest, next =>
      .call request fun reply => bind (rest reply) next

instance : Monad (Prog C R ε) where
  pure := .done
  bind := bind

@[simp]
theorem pure_eq (value : α) :
    (pure value : Prog C R ε α) = .done value :=
  rfl

@[simp]
theorem done_bind (value : α) (next : α → Prog C R ε β) :
    (Prog.done value >>= next) = next value :=
  rfl

@[simp]
theorem fail_bind (error : ε) (next : α → Prog C R ε β) :
    (Prog.fail error >>= next) = .fail error :=
  rfl

@[simp]
theorem call_bind
    (request : C)
    (rest : R request → Prog C R ε α)
    (next : α → Prog C R ε β) :
    (Prog.call request rest >>= next) =
      .call request fun reply => rest reply >>= next :=
  rfl

@[simp]
theorem bind_assoc
    (program : Prog C R ε α)
    (first : α → Prog C R ε β)
    (second : β → Prog C R ε γ) :
    ((program >>= first) >>= second) =
      (program >>= fun value => first value >>= second) := by
  induction program with
  | done value => rfl
  | fail error => rfl
  | call request next hypothesis =>
      simp only [call_bind]
      exact congrArg (Prog.call request) (funext hypothesis)

/-- Convert the error of a program. -/
def mapError (convert : ε → ε') :
    Prog C R ε α → Prog C R ε' α
  | .done value => .done value
  | .fail error => .fail (convert error)
  | .call request next =>
      .call request fun reply => mapError convert (next reply)

/-- Hand the outcome of a program, value or error, to its continuation. -/
def attempt : Prog C R ε α → Prog C R ε' (Except ε α)
  | .done value => .done (.ok value)
  | .fail error => .done (.error error)
  | .call request next =>
      .call request fun reply => attempt (next reply)

/-- Thread an accumulator through a list, left to right. -/
def foldEach
    (body : γ → β → Prog C R ε γ) :
    γ → List β → Prog C R ε γ
  | state, [] => .done state
  | state, item :: rest =>
      body state item >>= fun next => foldEach body next rest

/-- Run one program for each item of a list, left to right. -/
def forEach
    (body : β → Prog C R ε Unit)
    (items : List β) :
    Prog C R ε Unit :=
  foldEach (fun _ item => body item) () items

/-- Stop with the error of an `Except`, or go on with its value. -/
def ofExcept : Except ε α → Prog C R ε α
  | .ok value => .done value
  | .error error => .fail error

@[simp]
theorem mapError_done (convert : ε → ε') (value : α) :
    mapError convert (.done value : Prog C R ε α) = .done value :=
  rfl

@[simp]
theorem mapError_fail (convert : ε → ε') (error : ε) :
    mapError convert (.fail error : Prog C R ε α) =
      .fail (convert error) :=
  rfl

@[simp]
theorem mapError_call
    (convert : ε → ε')
    (request : C)
    (next : R request → Prog C R ε α) :
    mapError convert (.call request next) =
      .call request fun reply => mapError convert (next reply) :=
  rfl

@[simp]
theorem attempt_done (value : α) :
    (attempt (.done value : Prog C R ε α) :
        Prog C R ε' (Except ε α)) =
      .done (.ok value) :=
  rfl

@[simp]
theorem attempt_fail (error : ε) :
    (attempt (.fail error : Prog C R ε α) :
        Prog C R ε' (Except ε α)) =
      .done (.error error) :=
  rfl

@[simp]
theorem attempt_call
    (request : C)
    (next : R request → Prog C R ε α) :
    (attempt (.call request next) :
        Prog C R ε' (Except ε α)) =
      .call request fun reply => attempt (next reply) :=
  rfl

@[simp]
theorem foldEach_nil
    (body : γ → β → Prog C R ε γ)
    (state : γ) :
    foldEach body state [] = .done state :=
  rfl

@[simp]
theorem foldEach_cons
    (body : γ → β → Prog C R ε γ)
    (state : γ)
    (item : β)
    (rest : List β) :
    foldEach body state (item :: rest) =
      (body state item >>= fun next => foldEach body next rest) :=
  rfl

@[simp]
theorem forEach_nil (body : β → Prog C R ε Unit) :
    forEach body [] = .done () :=
  rfl

@[simp]
theorem forEach_cons
    (body : β → Prog C R ε Unit)
    (item : β)
    (rest : List β) :
    forEach body (item :: rest) =
      (body item >>= fun _ => forEach body rest) :=
  rfl

@[simp]
theorem ofExcept_ok (value : α) :
    (ofExcept (.ok value) : Prog C R ε α) = .done value :=
  rfl

@[simp]
theorem ofExcept_error (error : ε) :
    (ofExcept (.error error) : Prog C R ε α) = .fail error :=
  rfl

/-- The outcome of a sequence is that of its last part reached. -/
theorem attempt_bind
    (program : Prog C R ε α)
    (next : α → Prog C R ε β) :
    (attempt (program >>= next) : Prog C R ε' (Except ε β)) =
      (attempt program : Prog C R ε' (Except ε α)) >>= fun outcome =>
        match outcome with
        | .ok value => attempt (next value)
        | .error error => .done (.error error) := by
  induction program with
  | done value => rfl
  | fail error => rfl
  | call request rest hypothesis =>
      exact congrArg (Prog.call request) (funext hypothesis)

/-- Run a program for its effect only. -/
def toEffect (program : Prog C R ε α) : Prog C R Unit Unit :=
  program.attempt >>= fun _ => .done ()

@[simp]
theorem toEffect_done (value : α) :
    toEffect (.done value : Prog C R ε α) = .done () :=
  rfl

@[simp]
theorem toEffect_fail (error : ε) :
    toEffect (.fail error : Prog C R ε α) = .done () :=
  rfl

@[simp]
theorem toEffect_call
    (request : C)
    (next : R request → Prog C R ε α) :
    toEffect (.call request next) =
      .call request fun reply => toEffect (next reply) :=
  rfl

theorem toEffect_bind
    (program : Prog C R ε α)
    (next : α → Prog C R ε β) :
    toEffect (program >>= next) =
      program.attempt >>= fun outcome =>
        match outcome with
        | .ok value => toEffect (next value)
        | .error _ => .done () := by
  induction program with
  | done value => rfl
  | fail error => rfl
  | call request rest hypothesis =>
      exact congrArg (Prog.call request) (funext hypothesis)

/-- What issues no calls adds nothing to the effect. -/
theorem toEffect_bind_silent
    {program : Prog C R ε α}
    {next : α → Prog C R ε β}
    (silent : ∀ value, toEffect (next value) = .done ()) :
    toEffect (program >>= next) = toEffect program := by
  induction program with
  | done value => exact silent value
  | fail error => rfl
  | call request rest hypothesis =>
      exact congrArg (Prog.call request) (funext hypothesis)

@[simp]
theorem toEffect_mapError
    (convert : ε → ε')
    (program : Prog C R ε α) :
    toEffect (mapError convert program) = toEffect program := by
  induction program with
  | done value => rfl
  | fail error => rfl
  | call request rest hypothesis =>
      exact congrArg (Prog.call request) (funext hypothesis)

@[simp]
theorem toEffect_toEffect (program : Prog C R ε α) :
    toEffect (toEffect program) = toEffect program := by
  induction program with
  | done value => rfl
  | fail error => rfl
  | call request rest hypothesis =>
      exact congrArg (Prog.call request) (funext hypothesis)

@[simp]
theorem toEffect_ofExcept (outcome : Except ε α) :
    toEffect (ofExcept outcome : Prog C R ε α) = .done () := by
  cases outcome <;> rfl

/-! ## Running a program to its end -/

/-- What the environment does with one call: a reply and the next state. -/
abbrev Handler (C : Type) (R : C → Type) (σ : Type) :=
  (request : C) → σ → R request × σ

/-- Run to the end; the outcome comes with the state reached. -/
def run (handler : Handler C R σ) :
    Prog C R ε α → σ → Except ε α × σ
  | .done value, state => (.ok value, state)
  | .fail error, state => (.error error, state)
  | .call request next, state =>
      run handler
        (next (handler request state).1)
        (handler request state).2

/-- The state after the first `count` calls, for a program cut off there. -/
def stateAfter (handler : Handler C R σ) :
    Nat → Prog C R ε α → σ → σ
  | 0, _, state => state
  | _ + 1, .done _, state => state
  | _ + 1, .fail _, state => state
  | count + 1, .call request next, state =>
      stateAfter handler count
        (next (handler request state).1)
        (handler request state).2

variable {handler : Handler C R σ}

@[simp]
theorem run_done (value : α) (state : σ) :
    run handler (.done value : Prog C R ε α) state =
      (.ok value, state) :=
  rfl

@[simp]
theorem run_fail (error : ε) (state : σ) :
    run handler (.fail error : Prog C R ε α) state =
      (.error error, state) :=
  rfl

@[simp]
theorem run_call
    (request : C)
    (next : R request → Prog C R ε α)
    (state : σ) :
    run handler (.call request next) state =
      run handler
        (next (handler request state).1)
        (handler request state).2 :=
  rfl

theorem run_bind
    (program : Prog C R ε α)
    (next : α → Prog C R ε β)
    (state : σ) :
    run handler (program >>= next) state =
      match run handler program state with
      | (.ok value, middle) => run handler (next value) middle
      | (.error error, middle) => (.error error, middle) := by
  induction program generalizing state with
  | done value => rfl
  | fail error => rfl
  | call request rest hypothesis => exact hypothesis _ _

/-- Sequencing after a program known to succeed. -/
theorem run_bind_ok
    {program : Prog C R ε α}
    {next : α → Prog C R ε β}
    {state middle : σ}
    {value : α}
    (first : run handler program state = (.ok value, middle)) :
    run handler (program >>= next) state =
      run handler (next value) middle := by
  rw [run_bind, first]

/-- Sequencing after a program known to stop with an error. -/
theorem run_bind_error
    {program : Prog C R ε α}
    {next : α → Prog C R ε β}
    {state middle : σ}
    {error : ε}
    (first : run handler program state = (.error error, middle)) :
    run handler (program >>= next) state = (.error error, middle) := by
  rw [run_bind, first]

theorem run_mapError
    (convert : ε → ε')
    (program : Prog C R ε α)
    (state : σ) :
    run handler (mapError convert program) state =
      ((run handler program state).1.mapError convert,
        (run handler program state).2) := by
  induction program generalizing state with
  | done value => rfl
  | fail error => rfl
  | call request next hypothesis => exact hypothesis _ _

theorem run_attempt
    (program : Prog C R ε α)
    (state : σ) :
    run handler
        (attempt program : Prog C R ε' (Except ε α)) state =
      (.ok (run handler program state).1,
        (run handler program state).2) := by
  induction program generalizing state with
  | done value => rfl
  | fail error => rfl
  | call request next hypothesis => exact hypothesis _ _

/-- A program run for its effect leaves the same state. -/
theorem run_toEffect
    (program : Prog C R ε α)
    (state : σ) :
    run handler (toEffect program) state =
      (.ok (), (run handler program state).2) := by
  rw [toEffect, run_bind, run_attempt]
  rfl

/-- A loop that leaves the state alone is a fold. -/
theorem run_foldEach_pure
    {body : γ → β → Prog C R ε γ}
    (step : γ → β → γ)
    {items : List β}
    {state : σ}
    (each :
      ∀ accumulated, ∀ item ∈ items,
        run handler (body accumulated item) state =
          (.ok (step accumulated item), state))
    (accumulated : γ) :
    run handler (foldEach body accumulated items) state =
      (.ok (items.foldl step accumulated), state) := by
  induction items generalizing accumulated with
  | nil => rfl
  | cons item rest hypothesis =>
      have first := each accumulated item (by simp)
      rw [foldEach_cons, run_bind_ok first, List.foldl_cons]
      exact
        hypothesis
          (fun accumulated other member =>
            each accumulated other (by simp [member])) _

/-- A loop that only reads is a fold that may fail. -/
theorem run_foldEach_read
    {body : γ → β → Prog C R ε γ}
    (step : γ → β → Except ε γ)
    {items : List β}
    {state : σ}
    (each :
      ∀ accumulated, ∀ item ∈ items,
        run handler (body accumulated item) state =
          (step accumulated item, state))
    (accumulated : γ) :
    run handler (foldEach body accumulated items) state =
      (items.foldlM step accumulated, state) := by
  induction items generalizing accumulated with
  | nil => rfl
  | cons item rest hypothesis =>
      have first := each accumulated item (by simp)
      rw [foldEach_cons, run_bind, first, List.foldlM_cons]
      cases step accumulated item with
      | error error => rfl
      | ok next =>
          exact
            hypothesis
              (fun accumulated other member =>
                each accumulated other (by simp [member])) _

/-- A loop that only reads keeps what each round keeps. -/
theorem run_foldEach_keeping
    {body : γ → β → Prog C R ε γ}
    {state : σ}
    (loop : γ → List β → Prop)
    (each :
      ∀ accumulated item rest,
        loop accumulated (item :: rest) →
          ∃ next,
            run handler (body accumulated item) state =
                (.ok next, state) ∧
              loop next rest)
    {accumulated : γ}
    {items : List β}
    (holds : loop accumulated items) :
    ∃ result,
      run handler (foldEach body accumulated items) state =
          (.ok result, state) ∧
        loop result [] := by
  induction items generalizing accumulated with
  | nil => exact ⟨accumulated, rfl, holds⟩
  | cons item rest hypothesis =>
      rcases each accumulated item rest holds with ⟨next, first, kept⟩
      rcases hypothesis kept with ⟨result, remaining, ends⟩
      exact
        ⟨result, by rw [foldEach_cons, run_bind_ok first, remaining], ends⟩

/-- What a loop ends with, whether or not a round fails. -/
theorem run_foldEach_ending
    {body : γ → β → Prog C R ε γ}
    (loop : γ → List β → σ → Prop)
    (ending : Except ε γ → σ → Prop)
    (each :
      ∀ accumulated item rest state,
        loop accumulated (item :: rest) state →
          (∃ next later,
            run handler (body accumulated item) state =
                (.ok next, later) ∧
              loop next rest later) ∨
          (∃ error later,
            run handler (body accumulated item) state =
                (.error error, later) ∧
              ending (.error error) later))
    (finish :
      ∀ accumulated state, loop accumulated [] state →
        ending (.ok accumulated) state)
    {accumulated : γ}
    {items : List β}
    {state : σ}
    (holds : loop accumulated items state) :
    ending (run handler (foldEach body accumulated items) state).1
      (run handler (foldEach body accumulated items) state).2 := by
  induction items generalizing accumulated state with
  | nil => exact finish accumulated state holds
  | cons item rest hypothesis =>
      rcases each accumulated item rest state holds with
        ⟨next, later, outcome, kept⟩ | ⟨error, later, outcome, ends⟩
      · rw [foldEach_cons, run_bind_ok outcome]
        exact hypothesis kept
      · rw [foldEach_cons, run_bind_error outcome]
        exact ends

/-- A loop whose body cannot fail folds the state. -/
theorem run_forEach_effect
    {body : β → Prog C R ε Unit}
    {effect : σ → β → σ}
    (each :
      ∀ item state,
        run handler (body item) state = (.ok (), effect state item))
    (items : List β)
    (state : σ) :
    run handler (forEach body items) state =
      (.ok (), items.foldl effect state) := by
  induction items generalizing state with
  | nil => rfl
  | cons item rest hypothesis =>
      rw [forEach_cons, run_bind_ok (each item state), List.foldl_cons]
      exact hypothesis _

/-- A loop whose body accumulates nothing folds the state. -/
theorem run_foldEach_effect
    {body : γ → β → Prog C R ε γ}
    {effect : σ → β → σ}
    (each :
      ∀ accumulated item state,
        run handler (body accumulated item) state =
          (.ok accumulated, effect state item))
    (accumulated : γ)
    (items : List β)
    (state : σ) :
    run handler (foldEach body accumulated items) state =
      (.ok accumulated, items.foldl effect state) := by
  induction items generalizing state with
  | nil => rfl
  | cons item rest hypothesis =>
      rw [foldEach_cons, run_bind_ok (each accumulated item state),
        List.foldl_cons]
      exact hypothesis _

/-! ## Cutting a program off -/

@[simp]
theorem stateAfter_zero
    (program : Prog C R ε α)
    (state : σ) :
    stateAfter handler 0 program state = state := by
  cases program <;> rfl

@[simp]
theorem stateAfter_done
    (count : Nat)
    (value : α)
    (state : σ) :
    stateAfter handler count (.done value : Prog C R ε α) state =
      state := by
  cases count <;> rfl

@[simp]
theorem stateAfter_fail
    (count : Nat)
    (error : ε)
    (state : σ) :
    stateAfter handler count (.fail error : Prog C R ε α) state =
      state := by
  cases count <;> rfl

@[simp]
theorem stateAfter_call
    (count : Nat)
    (request : C)
    (next : R request → Prog C R ε α)
    (state : σ) :
    stateAfter handler (count + 1) (.call request next) state =
      stateAfter handler count
        (next (handler request state).1)
        (handler request state).2 :=
  rfl

/-! ## The calls of a run -/

/-- The calls issued in a run, in order. -/
def issued (handler : Handler C R σ) : Prog C R ε α → σ → List C
  | .done _, _ => []
  | .fail _, _ => []
  | .call request next, state =>
      request ::
        issued handler
          (next (handler request state).1)
          (handler request state).2

theorem issued_bind
    (program : Prog C R ε α)
    (next : α → Prog C R ε β)
    (state : σ) :
    issued handler (program >>= next) state =
      issued handler program state ++
        match run handler program state with
        | (.ok value, later) => issued handler (next value) later
        | (.error _, _) => [] := by
  induction program generalizing state with
  | done value => rfl
  | fail error => rfl
  | call request rest hypothesis =>
      exact congrArg (request :: ·) (hypothesis _ _)

theorem issued_bind_ok
    {program : Prog C R ε α}
    {next : α → Prog C R ε β}
    {state later : σ}
    {value : α}
    (ran : run handler program state = (.ok value, later)) :
    issued handler (program >>= next) state =
      issued handler program state ++ issued handler (next value) later := by
  rw [issued_bind, ran]

theorem issued_mapError
    (convert : ε → ε')
    (program : Prog C R ε α)
    (state : σ) :
    issued handler (mapError convert program) state =
      issued handler program state := by
  induction program generalizing state with
  | done value => rfl
  | fail error => rfl
  | call request rest hypothesis =>
      exact congrArg (request :: ·) (hypothesis _ _)

theorem issued_attempt
    (program : Prog C R ε α)
    (state : σ) :
    issued handler (attempt program : Prog C R ε' (Except ε α)) state =
      issued handler program state := by
  induction program generalizing state with
  | done value => rfl
  | fail error => rfl
  | call request rest hypothesis =>
      exact congrArg (request :: ·) (hypothesis _ _)

@[simp]
theorem issued_ofExcept (outcome : Except ε α) (state : σ) :
    issued handler (ofExcept outcome) state = [] := by
  cases outcome <;> rfl

/-- A loop whose body reads once reads once for each item. -/
theorem issued_foldEach_pure
    {body : γ → β → Prog C R ε γ}
    (step : γ → β → γ)
    (request : β → C)
    {items : List β}
    {state : σ}
    (each :
      ∀ accumulated, ∀ item ∈ items,
        run handler (body accumulated item) state =
          (.ok (step accumulated item), state))
    (asks :
      ∀ accumulated, ∀ item ∈ items,
        issued handler (body accumulated item) state = [request item])
    (accumulated : γ) :
    issued handler (foldEach body accumulated items) state =
      items.map request := by
  induction items generalizing accumulated with
  | nil => rfl
  | cons item rest hypothesis =>
      rw [foldEach_cons,
        issued_bind_ok (each accumulated item List.mem_cons_self),
        asks accumulated item List.mem_cons_self]
      exact
        congrArg (request item :: ·)
          (hypothesis
            (fun accumulated other member =>
              each accumulated other (List.mem_cons_of_mem _ member))
            (fun accumulated other member =>
              asks accumulated other (List.mem_cons_of_mem _ member)) _)

/-! ## One failing call -/

/--
The handler whose failable call number `position` is answered by `broken` and
leaves the state alone.  Calls that `broken` has no answer for cannot fail
and are not counted.
-/
def faultAt
    (handler : Handler C R σ)
    (broken : (request : C) → Option (R request))
    (position : Nat) :
    Handler C R (σ × Nat) :=
  fun request state =>
    match broken request with
    | none =>
        ((handler request state.1).1,
          ((handler request state.1).2, state.2))
    | some reply =>
        if state.2 = position then
          (reply, (state.1, state.2 + 1))
        else
          ((handler request state.1).1,
            ((handler request state.1).2, state.2 + 1))

/-- The failable call that the fault at `position` hits, if it is reached. -/
def callAt
    (handler : Handler C R σ)
    (broken : (request : C) → Option (R request)) :
    Nat → Prog C R ε α → σ → Option C
  | _, .done _, _ => none
  | _, .fail _, _ => none
  | position, .call request next, state =>
      match broken request, position with
      | none, _ =>
          callAt handler broken position
            (next (handler request state).1)
            (handler request state).2
      | some _, 0 => some request
      | some _, position + 1 =>
          callAt handler broken position
            (next (handler request state).1)
            (handler request state).2

/-! ## Programs that issue only certain calls -/

/--
As long as every reply is a credible one, every call issued is an allowed
one.
-/
def Issues
    (credible : (request : C) → R request → Prop)
    (allowed : C → Prop) : Prog C R ε α → Prop
  | .done _ => True
  | .fail _ => True
  | .call request next =>
      allowed request ∧
        ∀ reply, credible request reply →
          Issues credible allowed (next reply)

section Issues

variable
    {credible : (request : C) → R request → Prop}
    {allowed : C → Prop}

@[simp]
theorem issues_done (value : α) :
    Issues credible allowed (.done value : Prog C R ε α) :=
  trivial

@[simp]
theorem issues_fail (error : ε) :
    Issues credible allowed (.fail error : Prog C R ε α) :=
  trivial

@[simp]
theorem issues_call
    (request : C)
    (next : R request → Prog C R ε α) :
    Issues credible allowed (.call request next) ↔
      allowed request ∧
        ∀ reply, credible request reply →
          Issues credible allowed (next reply) :=
  Iff.rfl

@[simp]
theorem issues_ofExcept (outcome : Except ε α) :
    Issues credible allowed
      (ofExcept outcome : Prog C R ε α) := by
  cases outcome <;> trivial

theorem Issues.bind
    {program : Prog C R ε α}
    {next : α → Prog C R ε β}
    (first : Issues credible allowed program)
    (second : ∀ value, Issues credible allowed (next value)) :
    Issues credible allowed (program >>= next) := by
  induction program with
  | done value => exact second value
  | fail error => trivial
  | call request rest hypothesis =>
      exact
        ⟨first.1, fun reply likely =>
          hypothesis reply (first.2 reply likely)⟩

theorem Issues.mapError
    {convert : ε → ε'}
    {program : Prog C R ε α}
    (issues : Issues credible allowed program) :
    Issues credible allowed (program.mapError convert) := by
  induction program with
  | done value => trivial
  | fail error => trivial
  | call request next hypothesis =>
      exact
        ⟨issues.1, fun reply likely =>
          hypothesis reply (issues.2 reply likely)⟩

theorem Issues.attempt
    {program : Prog C R ε α}
    (issues : Issues credible allowed program) :
    Issues credible allowed
      (program.attempt : Prog C R ε' (Except ε α)) := by
  induction program with
  | done value => trivial
  | fail error => trivial
  | call request next hypothesis =>
      exact
        ⟨issues.1, fun reply likely =>
          hypothesis reply (issues.2 reply likely)⟩

theorem issues_foldEach
    {body : γ → β → Prog C R ε γ}
    {items : List β}
    (each :
      ∀ state, ∀ item ∈ items, Issues credible allowed (body state item))
    (state : γ) :
    Issues credible allowed (foldEach body state items) := by
  induction items generalizing state with
  | nil => trivial
  | cons item rest hypothesis =>
      exact
        (each state item (by simp)).bind
          (hypothesis fun state other member =>
            each state other (by simp [member]))

theorem issues_forEach
    {body : β → Prog C R ε Unit}
    {items : List β}
    (each : ∀ item ∈ items, Issues credible allowed (body item)) :
    Issues credible allowed (forEach body items) :=
  issues_foldEach (fun _ => each) ()

end Issues

/-! ## What programs return -/

/-- As long as every reply is a credible one, every result is a good one. -/
def Returns
    (credible : (request : C) → R request → Prop)
    (good : α → Prop) : Prog C R ε α → Prop
  | .done value => good value
  | .fail _ => True
  | .call request next =>
      ∀ reply, credible request reply → Returns credible good (next reply)

section Returns

variable {credible : (request : C) → R request → Prop}

theorem returns_any (program : Prog C R ε α) :
    Returns credible (fun _ => True) program := by
  induction program with
  | done value => trivial
  | fail error => trivial
  | call request next hypothesis => exact fun reply _ => hypothesis reply

theorem Returns.bind
    {good : α → Prop}
    {last : β → Prop}
    {program : Prog C R ε α}
    {next : α → Prog C R ε β}
    (first : Returns credible good program)
    (second : ∀ value, good value → Returns credible last (next value)) :
    Returns credible last (program >>= next) := by
  induction program with
  | done value => exact second value first
  | fail error => trivial
  | call request rest hypothesis =>
      exact fun reply likely => hypothesis reply (first reply likely)

/-- The form of `Returns.bind` for a result that does not matter. -/
theorem Returns.after
    {last : β → Prop}
    (program : Prog C R ε α)
    {next : α → Prog C R ε β}
    (second : ∀ value, Returns credible last (next value)) :
    Returns credible last (program >>= next) :=
  (returns_any program).bind fun value _ => second value

theorem Returns.mapError
    {good : α → Prop}
    {convert : ε → ε'}
    {program : Prog C R ε α}
    (returns : Returns credible good program) :
    Returns credible good (program.mapError convert) := by
  induction program with
  | done value => exact returns
  | fail error => trivial
  | call request next hypothesis =>
      exact fun reply likely => hypothesis reply (returns reply likely)

/-- What a program issues after a result that is known to be good. -/
theorem Issues.bindReturns
    {allowed : C → Prop}
    {good : α → Prop}
    {program : Prog C R ε α}
    {next : α → Prog C R ε β}
    (first : Issues credible allowed program)
    (returns : Returns credible good program)
    (second : ∀ value, good value → Issues credible allowed (next value)) :
    Issues credible allowed (program >>= next) := by
  induction program with
  | done value => exact second value returns
  | fail error => trivial
  | call request rest hypothesis =>
      exact
        ⟨first.1, fun reply likely =>
          hypothesis reply (first.2 reply likely) (returns reply likely)⟩

end Returns

/-! ## Runs of such programs -/

section Runs

variable
    {credible : (request : C) → R request → Prop}
    {handler : Handler C R σ}

/-- A run keeps what every allowed call keeps. -/
theorem Issues.run
    {allowed : C → Prop}
    {keeps : σ → Prop}
    (replies : ∀ request state, credible request (handler request state).1)
    (step :
      ∀ request state,
        allowed request → keeps state → keeps (handler request state).2)
    {program : Prog C R ε α}
    (issues : Issues credible allowed program)
    {state : σ}
    (holds : keeps state) :
    keeps (run handler program state).2 := by
  induction program generalizing state with
  | done value => exact holds
  | fail error => exact holds
  | call request next hypothesis =>
      exact
        hypothesis _ (issues.2 _ (replies request state))
          (step request state issues.1 holds)

/-- A run that succeeds returns a good result. -/
theorem Returns.run
    {good : α → Prop}
    (replies : ∀ request state, credible request (handler request state).1)
    {program : Prog C R ε α}
    (returns : Returns credible good program)
    {state : σ}
    {value : α}
    (succeeds : (run handler program state).1 = .ok value) :
    good value := by
  induction program generalizing state with
  | done result =>
      cases succeeds
      exact returns
  | fail error => cases succeeds
  | call request next hypothesis =>
      exact hypothesis _ (returns _ (replies request state)) succeeds

end Runs

end Prog

end CallProgram
