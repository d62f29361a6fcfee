import Mathlib.Logic.Basic
import Mathlib.Data.List.Basic

/-!
# Futures that may be dropped

A future runs from one await point to the next.  At each of them it is either
resumed with the reply to what it asked for, or dropped by whoever holds it;
it may also end early in a panic.  A future that ends early takes what it owns
with it: its guards are dropped, the last one first, and a guard that is still
armed then fires, provided there is a runtime to fire on.

What holds of a run is shown on the future alone: `Safe` says what has to hold
at every place where the run can end.
-/

namespace Droppable

variable
    {Q : Type}
    {R : Q → Type}
    {G : Type}
    {α β : Type}

/--
A computation that awaits the replies `R request` to its requests and that
owns guards.
-/
inductive Future (Q : Type) (R : Q → Type) (G α : Type) where
  | ready (value : α)
  | panic
  | await (request : Q) (next : R request → Future Q R G α)
  /-- Come to own a guard that is armed. -/
  | acquire (guard : G) (next : Future Q R G α)
  /-- Disarm the guard that was acquired last. -/
  | disarm (next : Future Q R G α)
  /-- Drop the guard that was acquired last. -/
  | release (next : Future Q R G α)

namespace Future

/-- Sequencing: a panic skips the continuation. -/
def bind : Future Q R G α → (α → Future Q R G β) → Future Q R G β
  | .ready value, next => next value
  | .panic, _ => .panic
  | .await request rest, next =>
      .await request fun reply => bind (rest reply) next
  | .acquire guard rest, next => .acquire guard (bind rest next)
  | .disarm rest, next => .disarm (bind rest next)
  | .release rest, next => .release (bind rest next)

instance : Monad (Future Q R G) where
  pure := .ready
  bind := bind

end Future

/-! ## Runs -/

/-- What can be seen of a run. -/
inductive Event (Q : Type) (R : Q → Type) (G : Type) where
  | sent (request : Q)
  | answered (request : Q) (reply : R request)
  | fired (guard : G)
  /-- An armed guard was dropped where there was no runtime. -/
  | stranded (guard : G)

structure Held (G : Type) where
  guard : G
  armed : Bool

/-- What has happened, and the guards that are owned, the last one first. -/
structure State (Q : Type) (R : Q → Type) (G : Type) where
  history : List (Event Q R G)
  held : List (Held G)

namespace State

def initial : State Q R G :=
  ⟨[], []⟩

def log (state : State Q R G) (event : Event Q R G) : State Q R G :=
  { state with history := state.history ++ [event] }

def acquire (state : State Q R G) (guard : G) : State Q R G :=
  { state with held := ⟨guard, true⟩ :: state.held }

def disarm (state : State Q R G) : State Q R G :=
  match state.held with
  | [] => state
  | last :: rest => { state with held := { last with armed := false } :: rest }

end State

/--
Everything a future meets: the reply to each request, or that it is dropped
there, and whether a guard that is dropped finds a runtime.
-/
structure Schedule (Q : Type) (R : Q → Type) (G : Type) where
  turn : List (Event Q R G) → (request : Q) → Option (R request)
  runtime : List (Event Q R G) → Bool

namespace Schedule

variable (schedule : Schedule Q R G)

/-- Drop one guard. -/
def drop
    (history : List (Event Q R G))
    (last : Held G) : List (Event Q R G) :=
  if last.armed then
    history ++
      [if schedule.runtime history then .fired last.guard
        else .stranded last.guard]
  else history

/-- Drop all guards. -/
def unwind (state : State Q R G) : List (Event Q R G) :=
  state.held.foldl schedule.drop state.history

def release (state : State Q R G) : State Q R G :=
  match state.held with
  | [] => state
  | last :: rest => ⟨schedule.drop state.history last, rest⟩

/-- Dropping a guard that was disarmed does nothing. -/
@[simp]
theorem history_release_disarm (state : State Q R G) :
    (schedule.release state.disarm).history = state.history := by
  rcases state with ⟨history, held⟩
  cases held with
  | nil => rfl
  | cons last rest => rfl

end Schedule

inductive Outcome (Q : Type) (R : Q → Type) (G α : Type) where
  | returned (value : α) (state : State Q R G)
  | dropped (history : List (Event Q R G))

/-- Everything that has happened when a run is over. -/
def Outcome.history : Outcome Q R G α → List (Event Q R G)
  | .returned _ state => state.history
  | .dropped history => history

/-- Run a future to its end. -/
def Schedule.run (schedule : Schedule Q R G) :
    Future Q R G α → State Q R G → Outcome Q R G α
  | .ready value, state => .returned value state
  | .panic, state => .dropped (schedule.unwind state)
  | .await request next, state =>
      match schedule.turn (state.log (.sent request)).history request with
      | none => .dropped (schedule.unwind (state.log (.sent request)))
      | some reply =>
          schedule.run (next reply)
            ((state.log (.sent request)).log (.answered request reply))
  | .acquire guard next, state => schedule.run next (state.acquire guard)
  | .disarm next, state => schedule.run next state.disarm
  | .release next, state => schedule.run next (schedule.release state)

/-! ## What holds wherever a run ends -/

section Safe

variable
    (schedule : Schedule Q R G)
    (dropped : List (Event Q R G) → Prop)

/--
Whatever the replies: a run that returns ends as `returned` says, and one that
is dropped or panics ends as `dropped` says.
-/
def Safe
    (returned : α → State Q R G → Prop) :
    Future Q R G α → State Q R G → Prop
  | .ready value, state => returned value state
  | .panic, state => dropped (schedule.unwind state)
  | .await request next, state =>
      dropped (schedule.unwind (state.log (.sent request))) ∧
        ∀ reply, Safe returned (next reply)
          ((state.log (.sent request)).log (.answered request reply))
  | .acquire guard next, state => Safe returned next (state.acquire guard)
  | .disarm next, state => Safe returned next state.disarm
  | .release next, state => Safe returned next (schedule.release state)

variable {schedule dropped}

theorem Safe.mono
    {before after : α → State Q R G → Prop}
    {future : Future Q R G α}
    {state : State Q R G}
    (safe : Safe schedule dropped before future state)
    (weaker : ∀ value state, before value state → after value state) :
    Safe schedule dropped after future state := by
  induction future generalizing state with
  | ready value => exact weaker value state safe
  | panic => exact safe
  | await request next hypothesis =>
      constructor
      · exact safe.1
      · intro reply
        exact hypothesis reply (safe.2 reply)
  | acquire guard next hypothesis => exact hypothesis safe
  | disarm next hypothesis => exact hypothesis safe
  | release next hypothesis => exact hypothesis safe

theorem Safe.bind
    {returned : β → State Q R G → Prop}
    {future : Future Q R G α}
    {next : α → Future Q R G β}
    {state : State Q R G}
    (safe :
      Safe schedule dropped
        (fun value => Safe schedule dropped returned (next value))
        future state) :
    Safe schedule dropped returned (future >>= next) state := by
  induction future generalizing state with
  | ready value => exact safe
  | panic => exact safe
  | await request rest hypothesis =>
      constructor
      · exact safe.1
      · intro reply
        exact hypothesis reply (safe.2 reply)
  | acquire guard rest hypothesis => exact hypothesis safe
  | disarm rest hypothesis => exact hypothesis safe
  | release rest hypothesis => exact hypothesis safe

/-- What holds wherever the run can end holds of what has happened. -/
theorem Safe.history
    {future : Future Q R G α}
    {state : State Q R G}
    (safe :
      Safe schedule dropped (fun _ state => dropped state.history)
        future state) :
    dropped (schedule.run future state).history := by
  induction future generalizing state with
  | ready value => exact safe
  | panic => exact safe
  | await request next hypothesis =>
      rw [Schedule.run]
      cases schedule.turn (state.log (.sent request)).history request with
      | none => exact safe.1
      | some reply => exact hypothesis reply (safe.2 reply)
  | acquire guard next hypothesis => exact hypothesis safe
  | disarm next hypothesis => exact hypothesis safe
  | release next hypothesis => exact hypothesis safe

end Safe

/-! ## Parts that leave the guards alone -/

/-- A future that makes certain requests only, and touches no guard. -/
def Confined (allowed : Q → Prop) : Future Q R G α → Prop
  | .ready _ => True
  | .panic => True
  | .await request next =>
      allowed request ∧ ∀ reply, Confined allowed (next reply)
  | .acquire _ _ => False
  | .disarm _ => False
  | .release _ => False

/-- An invariant that certain requests and their replies keep. -/
structure Kept
    (allowed : Q → Prop)
    (invariant : State Q R G → Prop) : Prop where
  sent : ∀ {state request}, allowed request →
    invariant state → invariant (state.log (.sent request))
  answered : ∀ {state request} (reply : R request), allowed request →
    invariant state → invariant (state.log (.answered request reply))

theorem Confined.safe
    {schedule : Schedule Q R G}
    {dropped : List (Event Q R G) → Prop}
    {allowed : Q → Prop}
    {invariant : State Q R G → Prop}
    {future : Future Q R G α}
    {state : State Q R G}
    (confined : Confined allowed future)
    (kept : Kept allowed invariant)
    (unwound : ∀ state, invariant state → dropped (schedule.unwind state))
    (holds : invariant state) :
    Safe schedule dropped (fun _ state => invariant state) future state := by
  induction future generalizing state with
  | ready value => exact holds
  | panic => exact unwound state holds
  | await request next hypothesis =>
      have sent := kept.sent confined.1 holds
      constructor
      · exact unwound _ sent
      · intro reply
        exact hypothesis reply (confined.2 reply)
          (kept.answered reply confined.1 sent)
  | acquire guard next => exact absurd confined id
  | disarm next => exact absurd confined id
  | release next => exact absurd confined id

end Droppable
