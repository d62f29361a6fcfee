import Mathlib.Logic.Function.Basic
import GitRemoteObjectStore.Library.Contract

/-!
# Clients sharing a state and a lock

Any number of clients run operations on one state.  An operation first
prepares without the lock and then, if there is something left to do, works
while holding it.  Clients are interleaved at single calls; alternatively
the work of one operation is a single step.

A `Discipline` is one contract for the preparations and one for the work,
chosen so that what any client guarantees is what every other relies on.  If
every operation is safe under these contracts, then every reachable pool
satisfies the invariant and every single call what it guarantees.
-/

namespace CallProgram

open Prog

variable
    {ι Op C : Type}
    {R : C → Type}
    {ε β σ : Type}

/-- Operations split into a preparation and work under the lock. -/
structure System
    (ι Op C : Type) (R : C → Type) (ε β σ : Type) where
  handler : ι → Handler C R σ
  /-- Bookkeeping when a client begins an operation. -/
  begin : ι → σ → σ
  /-- What the passing of time does. -/
  elapse : Nat → σ → σ
  prepare : Op → Prog C R ε (Option β)
  work : β → Prog C R ε Unit

/-- Where a client is. -/
inductive Phase (Op C : Type) (R : C → Type) (ε β : Type) where
  | idle
  | preparing (operation : Op) (program : Prog C R ε (Option β))
  | waiting (operation : Op) (task : β)
  | holding (operation : Op) (program : Prog C R ε Unit)

/-- The shared state, the holder of the lock and all clients. -/
structure Pool (ι Op C : Type) (R : C → Type) (ε β σ : Type) where
  state : σ
  holder : Option ι
  phase : ι → Phase Op C R ε β

/-- A step of one client, or the passing of time. -/
inductive Action (ι Op : Type) where
  | start (client : ι) (operation : Op)
  | call (client : ι)
  | settle (client : ι)
  | giveUp (client : ι)
  | lock (client : ι)
  | atomic (client : ι)
  | elapse (duration : Nat)

namespace Pool

/-- Nobody is doing anything. -/
def quiet (state : σ) : Pool ι Op C R ε β σ :=
  ⟨state, none, fun _ => .idle⟩

variable [DecidableEq ι]

/-- The pool in which one client has moved on. -/
def move
    (pool : Pool ι Op C R ε β σ)
    (client : ι)
    (state : σ)
    (holder : Option ι)
    (phase : Phase Op C R ε β) : Pool ι Op C R ε β σ :=
  ⟨state, holder, Function.update pool.phase client phase⟩

end Pool

variable [DecidableEq ι]

/-- The steps of a pool. -/
inductive System.Step
    (system : System ι Op C R ε β σ)
    (pool : Pool ι Op C R ε β σ) :
    Action ι Op → Pool ι Op C R ε β σ → Prop where
  | start {client : ι} {operation : Op}
      (idle : pool.phase client = .idle) :
      Step system pool (.start client operation)
        (pool.move client (system.begin client pool.state) pool.holder
          (.preparing operation (system.prepare operation)))
  | prepareCall {client : ι} {operation : Op} {request : C}
      {next : R request → Prog C R ε (Option β)}
      (preparing :
        pool.phase client = .preparing operation (.call request next)) :
      Step system pool (.call client)
        (pool.move client
          (system.handler client request pool.state).2 pool.holder
          (.preparing operation
            (next (system.handler client request pool.state).1)))
  | workCall {client : ι} {operation : Op} {request : C}
      {next : R request → Prog C R ε Unit}
      (holding :
        pool.phase client = .holding operation (.call request next)) :
      Step system pool (.call client)
        (pool.move client
          (system.handler client request pool.state).2 pool.holder
          (.holding operation
            (next (system.handler client request pool.state).1)))
  | prepared {client : ι} {operation : Op} {task : β}
      (done :
        pool.phase client = .preparing operation (.done (some task))) :
      Step system pool (.settle client)
        (pool.move client pool.state pool.holder (.waiting operation task))
  | nothingToDo {client : ι} {operation : Op}
      (done : pool.phase client = .preparing operation (.done none)) :
      Step system pool (.settle client)
        (pool.move client pool.state pool.holder .idle)
  | prepareFailed {client : ι} {operation : Op} {error : ε}
      (done : pool.phase client = .preparing operation (.fail error)) :
      Step system pool (.settle client)
        (pool.move client pool.state pool.holder .idle)
  | unlock {client : ι} {operation : Op}
      (done : pool.phase client = .holding operation (.done ())) :
      Step system pool (.settle client)
        (pool.move client pool.state none .idle)
  | unlockFailed {client : ι} {operation : Op} {error : ε}
      (done : pool.phase client = .holding operation (.fail error)) :
      Step system pool (.settle client)
        (pool.move client pool.state none .idle)
  | giveUp {client : ι} {operation : Op} {task : β}
      (waiting : pool.phase client = .waiting operation task) :
      Step system pool (.giveUp client)
        (pool.move client pool.state pool.holder .idle)
  | lock {client : ι} {operation : Op} {task : β}
      (waiting : pool.phase client = .waiting operation task)
      (free : pool.holder = none) :
      Step system pool (.lock client)
        (pool.move client pool.state (some client)
          (.holding operation (system.work task)))
  | atomic {client : ι} {operation : Op} {task : β}
      (waiting : pool.phase client = .waiting operation task)
      (free : pool.holder = none) :
      Step system pool (.atomic client)
        (pool.move client
          (run (system.handler client) (system.work task) pool.state).2
          none .idle)
  | elapse {duration : Nat} :
      Step system pool (.elapse duration)
        { pool with state := system.elapse duration pool.state }

/-- The pools reached by steps that all meet a condition. -/
inductive System.Reaches
    (system : System ι Op C R ε β σ)
    (condition : Pool ι Op C R ε β σ → Action ι Op → Prop)
    (start : Pool ι Op C R ε β σ) : Pool ι Op C R ε β σ → Prop where
  | refl : Reaches system condition start start
  | step {pool next : Pool ι Op C R ε β σ} {action : Action ι Op}
      (before : Reaches system condition start pool)
      (allowed : condition pool action)
      (stepped : system.Step pool action next) :
      Reaches system condition start next

/-- The call a client makes next. -/
def Phase.nextCall? : Phase Op C R ε β → Option (Op × C)
  | .preparing operation (.call request _) => some (operation, request)
  | .holding operation (.call request _) => some (operation, request)
  | _ => none

/-- The operation and the task of a client that waits for the lock. -/
def Phase.waiting? : Phase Op C R ε β → Option (Op × β)
  | .waiting operation task => some (operation, task)
  | _ => none

theorem Phase.waiting?_eq_some
    {phase : Phase Op C R ε β}
    {operation : Op}
    {task : β} :
    phase.waiting? = some (operation, task) ↔
      phase = .waiting operation task := by
  cases phase <;> simp [waiting?]

/--
Whatever call a client makes next happens as promised, and locked work is
done call by call.
-/
def Pool.Meets
    (met : ι → Op → C → σ → Prop)
    (pool : Pool ι Op C R ε β σ) : Action ι Op → Prop
  | .call client =>
      ∀ next ∈ (pool.phase client).nextCall?,
        met client next.1 next.2 pool.state
  | .atomic _ => False
  | _ => True

instance
    {met : ι → Op → C → σ → Prop}
    [∀ client operation request state,
      Decidable (met client operation request state)]
    (pool : Pool ι Op C R ε β σ)
    (action : Action ι Op) :
    Decidable (pool.Meets met action) :=
  match action with
  | .start _ _ => .isTrue trivial
  | .call _ => inferInstanceAs (Decidable (∀ _ ∈ _, _))
  | .settle _ => .isTrue trivial
  | .giveUp _ => .isTrue trivial
  | .lock _ => .isTrue trivial
  | .atomic _ => .isFalse id
  | .elapse _ => .isTrue trivial

/-! ## Executing a schedule -/

/-- The step an action makes, if it can be made. -/
def System.step?
    (system : System ι Op C R ε β σ)
    (pool : Pool ι Op C R ε β σ) :
    Action ι Op → Option (Pool ι Op C R ε β σ)
  | .start client operation =>
      match pool.phase client with
      | .idle =>
          some (pool.move client (system.begin client pool.state)
            pool.holder
            (.preparing operation (system.prepare operation)))
      | _ => none
  | .call client =>
      match pool.phase client with
      | .preparing operation (.call request next) =>
          let reply := system.handler client request pool.state
          some (pool.move client reply.2 pool.holder
            (.preparing operation (next reply.1)))
      | .holding operation (.call request next) =>
          let reply := system.handler client request pool.state
          some (pool.move client reply.2 pool.holder
            (.holding operation (next reply.1)))
      | _ => none
  | .settle client =>
      match pool.phase client with
      | .preparing operation (.done (some task)) =>
          some (pool.move client pool.state pool.holder
            (.waiting operation task))
      | .preparing _ (.done none) =>
          some (pool.move client pool.state pool.holder .idle)
      | .preparing _ (.fail _) =>
          some (pool.move client pool.state pool.holder .idle)
      | .holding _ (.done _) =>
          some (pool.move client pool.state none .idle)
      | .holding _ (.fail _) =>
          some (pool.move client pool.state none .idle)
      | _ => none
  | .giveUp client =>
      match pool.phase client with
      | .waiting _ _ =>
          some (pool.move client pool.state pool.holder .idle)
      | _ => none
  | .lock client =>
      match pool.phase client, pool.holder with
      | .waiting operation task, none =>
          some (pool.move client pool.state (some client)
            (.holding operation (system.work task)))
      | _, _ => none
  | .atomic client =>
      match pool.phase client, pool.holder with
      | .waiting _ task, none =>
          some (pool.move client
            (run (system.handler client) (system.work task)
              pool.state).2
            none .idle)
      | _, _ => none
  | .elapse duration =>
      some { pool with state := system.elapse duration pool.state }

theorem System.step_of_step?
    {system : System ι Op C R ε β σ}
    {pool next : Pool ι Op C R ε β σ}
    {action : Action ι Op}
    (stepped : system.step? pool action = some next) :
    system.Step pool action next := by
  cases action with
  | start client operation =>
      simp only [step?] at stepped
      split at stepped <;> cases stepped
      exact .start ‹_›
  | call client =>
      simp only [step?] at stepped
      split at stepped <;> cases stepped
      · exact .prepareCall ‹_›
      · exact .workCall ‹_›
  | settle client =>
      simp only [step?] at stepped
      split at stepped <;> cases stepped
      · exact .prepared ‹_›
      · exact .nothingToDo ‹_›
      · exact .prepareFailed ‹_›
      · exact .unlock ‹_›
      · exact .unlockFailed ‹_›
  | giveUp client =>
      simp only [step?] at stepped
      split at stepped <;> cases stepped
      exact .giveUp ‹_›
  | lock client =>
      simp only [step?] at stepped
      split at stepped <;> cases stepped
      exact .lock ‹_› ‹_›
  | atomic client =>
      simp only [step?] at stepped
      split at stepped <;> cases stepped
      exact .atomic ‹_› ‹_›
  | elapse duration =>
      cases stepped
      exact .elapse

/-- Execute a schedule, checking a condition at every step. -/
def System.schedule?
    (system : System ι Op C R ε β σ)
    (condition : Pool ι Op C R ε β σ → Action ι Op → Prop)
    [∀ pool action, Decidable (condition pool action)] :
    List (Action ι Op) → Pool ι Op C R ε β σ →
      Option (Pool ι Op C R ε β σ)
  | [], pool => some pool
  | action :: rest, pool =>
      if condition pool action then
        (system.step? pool action).bind (system.schedule? condition rest)
      else none

/-- What a schedule executes to is reached. -/
theorem System.Reaches.schedule
    {system : System ι Op C R ε β σ}
    {condition : Pool ι Op C R ε β σ → Action ι Op → Prop}
    [∀ pool action, Decidable (condition pool action)]
    {start pool last : Pool ι Op C R ε β σ}
    (before : system.Reaches condition start pool)
    {actions : List (Action ι Op)}
    (executed : system.schedule? condition actions pool = some last) :
    system.Reaches condition start last := by
  induction actions generalizing pool with
  | nil =>
      cases executed
      exact before
  | cons action rest hypothesis =>
      simp only [schedule?] at executed
      split at executed
      next allowed =>
          rcases Option.bind_eq_some_iff.1 executed with
            ⟨middle, stepped, remaining⟩
          exact
            hypothesis
              (before.step allowed
                (step_of_step? stepped))
              remaining
      next => cases executed

/-- Consecutive calls of one client. -/
def Action.calls (client : ι) (count : Nat) : List (Action ι Op) :=
  List.replicate count (.call client)

/-! ## Disciplines -/

/-- Matching contracts for preparing and for working clients. -/
structure Discipline (ι Op C σ : Type) where
  invariant : σ → Prop
  met : ι → Op → C → σ → Prop
  /-- What a client without the lock relies on. -/
  freeRely : ι → σ → σ → Prop
  /-- What the holder of the lock relies on. -/
  heldRely : ι → σ → σ → Prop
  freeStep : ι → Op → σ → σ → Prop
  heldStep : ι → Op → σ → σ → Prop
  freeRely_refl : ∀ client state, freeRely client state state
  freeRely_trans :
    ∀ client first second third,
      freeRely client first second → freeRely client second third →
        freeRely client first third
  heldRely_refl : ∀ client state, heldRely client state state
  heldRely_trans :
    ∀ client first second third,
      heldRely client first second → heldRely client second third →
        heldRely client first third
  free_of_freeStep :
    ∀ client other operation state state',
      other ≠ client → freeStep client operation state state' →
        freeRely other state state'
  held_of_freeStep :
    ∀ client other operation state state',
      other ≠ client → freeStep client operation state state' →
        heldRely other state state'
  free_of_heldStep :
    ∀ client other operation state state',
      other ≠ client → heldStep client operation state state' →
        freeRely other state state'

namespace Discipline

variable (discipline : Discipline ι Op C σ)

/-- The contract of a preparation. -/
def free (client : ι) (operation : Op) : Contract C σ where
  rely := discipline.freeRely client
  invariant := discipline.invariant
  met := discipline.met client operation
  guarantee := discipline.freeStep client operation
  rely_refl := discipline.freeRely_refl client
  rely_trans := discipline.freeRely_trans client

/-- The contract of work under the lock. -/
def held (client : ι) (operation : Op) : Contract C σ where
  rely := discipline.heldRely client
  invariant := discipline.invariant
  met := discipline.met client operation
  guarantee := discipline.heldStep client operation
  rely_refl := discipline.heldRely_refl client
  rely_trans := discipline.heldRely_trans client

end Discipline

/-- Every operation of the system keeps to the discipline. -/
structure System.Follows
    (system : System ι Op C R ε β σ)
    (discipline : Discipline ι Op C σ)
    (ready : ι → Op → β → σ → Prop) : Prop where
  ready_stable :
    ∀ client operation task state later,
      discipline.freeRely client state later →
        ready client operation task state →
          ready client operation task later
  begin :
    ∀ client state,
      discipline.invariant state →
        discipline.invariant (system.begin client state) ∧
          ∀ other, other ≠ client →
            discipline.freeRely other state (system.begin client state) ∧
              discipline.heldRely other state (system.begin client state)
  elapse :
    ∀ duration state,
      discipline.invariant state →
        discipline.invariant (system.elapse duration state) ∧
          ∀ client,
            discipline.freeRely client state
                (system.elapse duration state) ∧
              discipline.heldRely client state
                (system.elapse duration state)
  prepare :
    ∀ client operation state,
      discipline.invariant state →
        Safe (discipline.free client operation) (system.handler client)
          (whenOk fun prepared later =>
            ∀ task, prepared = some task →
              ready client operation task later)
          (system.prepare operation) (system.begin client state)
  work :
    ∀ client operation task state,
      discipline.invariant state →
        ready client operation task state →
          Safe (discipline.held client operation)
            (system.handler client) (fun _ _ => True)
            (system.work task) state

/-- What the discipline promises of one client. -/
def Phase.Ok
    (system : System ι Op C R ε β σ)
    (discipline : Discipline ι Op C σ)
    (ready : ι → Op → β → σ → Prop)
    (client : ι)
    (state : σ) : Phase Op C R ε β → Prop
  | .idle => True
  | .preparing operation program =>
      Safe (discipline.free client operation) (system.handler client)
        (whenOk fun prepared later =>
          ∀ task, prepared = some task →
            ready client operation task later)
        program state
  | .waiting operation task => ready client operation task state
  | .holding operation program =>
      Safe (discipline.held client operation) (system.handler client)
        (fun _ _ => True) program state

/-- Whether a client is in its work. -/
def Phase.Holding : Phase Op C R ε β → Prop
  | .holding _ _ => True
  | _ => False

/-- The invariant, what is promised of every client, one holder at most. -/
structure Pool.Ok
    (system : System ι Op C R ε β σ)
    (discipline : Discipline ι Op C σ)
    (ready : ι → Op → β → σ → Prop)
    (pool : Pool ι Op C R ε β σ) : Prop where
  invariant : discipline.invariant pool.state
  clients :
    ∀ client,
      (pool.phase client).Ok system discipline ready client pool.state
  exclusive :
    ∀ client, (pool.phase client).Holding → pool.holder = some client

section Soundness

variable
    {system : System ι Op C R ε β σ}
    {discipline : Discipline ι Op C σ}
    {ready : ι → Op → β → σ → Prop}

omit [DecidableEq ι] in
theorem Pool.ok_quiet
    {state : σ}
    (invariant : discipline.invariant state) :
    (Pool.quiet state : Pool ι Op C R ε β σ).Ok system discipline
      ready where
  invariant := invariant
  clients := fun _ => trivial
  exclusive := fun _ holding => holding.elim

omit [DecidableEq ι] in
/-- What others may do leaves a client in order. -/
theorem Phase.Ok.later
    (follows : system.Follows discipline ready)
    {client : ι}
    {state later : σ}
    {phase : Phase Op C R ε β}
    (ok : phase.Ok system discipline ready client state)
    (free : discipline.freeRely client state later)
    (held : phase.Holding → discipline.heldRely client state later) :
    phase.Ok system discipline ready client later := by
  cases phase with
  | idle => trivial
  | preparing operation program => exact Safe.later ok free
  | waiting operation task =>
      exact follows.ready_stable _ _ _ _ _ free ok
  | holding operation program => exact Safe.later ok (held trivial)

/-- A move of one client, given what it means for the others. -/
theorem Pool.Ok.move
    (follows : system.Follows discipline ready)
    {pool : Pool ι Op C R ε β σ}
    (ok : pool.Ok system discipline ready)
    {client : ι}
    {state : σ}
    {holder : Option ι}
    {phase : Phase Op C R ε β}
    (invariant : discipline.invariant state)
    (own : phase.Ok system discipline ready client state)
    (free :
      ∀ other, other ≠ client →
        discipline.freeRely other pool.state state)
    (held :
      ∀ other, other ≠ client → (pool.phase other).Holding →
        discipline.heldRely other pool.state state)
    (ownHolder : phase.Holding → holder = some client)
    (holders :
      ∀ other, other ≠ client → (pool.phase other).Holding →
        holder = some other) :
    (pool.move client state holder phase).Ok system discipline ready where
  invariant := invariant
  clients := by
    intro other
    by_cases same : other = client
    · subst same
      simpa [Pool.move] using own
    · simpa [Pool.move, same] using
        (ok.clients other).later follows (free other same)
          (held other same)
  exclusive := by
    intro other holding
    by_cases same : other = client
    · subst same
      exact ownHolder (by simpa [Pool.move] using holding)
    · exact
        holders other same (by simpa [Pool.move, same] using holding)

omit [DecidableEq ι] in
/-- When a client holds the lock, no other one does. -/
theorem Pool.Ok.alone
    {pool : Pool ι Op C R ε β σ}
    (ok : pool.Ok system discipline ready)
    {client other : ι}
    (holding : (pool.phase client).Holding)
    (different : other ≠ client) :
    ¬ (pool.phase other).Holding := by
  intro otherHolding
  have same :=
    (ok.exclusive client holding).symm.trans
      (ok.exclusive other otherHolding)
  exact different (Option.some.inj same).symm

/-- A step that leaves the state and the others' lock alone. -/
theorem Pool.Ok.moveQuietly
    (follows : system.Follows discipline ready)
    {pool : Pool ι Op C R ε β σ}
    (ok : pool.Ok system discipline ready)
    {client : ι}
    {phase : Phase Op C R ε β}
    (own : phase.Ok system discipline ready client pool.state)
    (notHolding : ¬ phase.Holding) :
    (pool.move client pool.state pool.holder phase).Ok system discipline
      ready :=
  ok.move follows ok.invariant own
    (fun other _ => discipline.freeRely_refl other _)
    (fun other _ _ => discipline.heldRely_refl other _)
    (fun holding => absurd holding notHolding)
    (fun other _ holding => ok.exclusive other holding)

omit [DecidableEq ι] in
/-- What one call does to the state, by the contract it is made under. -/
theorem Pool.Ok.call
    {pool : Pool ι Op C R ε β σ}
    (ok : pool.Ok system discipline ready)
    {client : ι}
    {operation : Op}
    {request : C} :
    (∀ next,
      pool.phase client = .preparing operation (.call request next) →
      discipline.met client operation request pool.state →
        discipline.freeStep client operation pool.state
          (system.handler client request pool.state).2) ∧
    (∀ next,
      pool.phase client = .holding operation (.call request next) →
      discipline.met client operation request pool.state →
        discipline.heldStep client operation pool.state
          (system.handler client request pool.state).2) := by
  have own := ok.clients client
  constructor
  · intro next preparing met
    rw [preparing] at own
    exact
      (own _ (discipline.freeRely_refl _ _) ok.invariant met).1.2
  · intro next holding met
    rw [holding] at own
    exact
      (own _ (discipline.heldRely_refl _ _) ok.invariant met).1.2

/-- A step meeting the discipline's condition keeps everything in order. -/
theorem Pool.Ok.step
    (follows : system.Follows discipline ready)
    {pool next : Pool ι Op C R ε β σ}
    {action : Action ι Op}
    (ok : pool.Ok system discipline ready)
    (meets : pool.Meets discipline.met action)
    (stepped : system.Step pool action next) :
    next.Ok system discipline ready := by
  cases stepped with
  | @start client operation idle =>
      rcases follows.begin client pool.state ok.invariant with
        ⟨invariant, others⟩
      exact
        ok.move follows invariant
          (follows.prepare client operation pool.state ok.invariant)
          (fun other different => (others other different).1)
          (fun other different _ => (others other different).2)
          (fun holding => holding.elim)
          (fun other _ holding => ok.exclusive other holding)
  | @prepareCall client operation request rest preparing =>
      have met :
          discipline.met client operation request pool.state := by
        have next := meets (operation, request)
        rw [preparing] at next
        exact next rfl
      have own := ok.clients client
      rw [preparing] at own
      rcases own _ (discipline.freeRely_refl _ _) ok.invariant met with
        ⟨⟨invariant, stepped⟩, remaining⟩
      exact
        ok.move follows invariant remaining
          (fun other different =>
            discipline.free_of_freeStep _ _ _ _ _ different stepped)
          (fun other different _ =>
            discipline.held_of_freeStep _ _ _ _ _ different stepped)
          (fun holding => holding.elim)
          (fun other _ holding => ok.exclusive other holding)
  | @workCall client operation request rest holding =>
      have met :
          discipline.met client operation request pool.state := by
        have next := meets (operation, request)
        rw [holding] at next
        exact next rfl
      have own := ok.clients client
      rw [holding] at own
      rcases own _ (discipline.heldRely_refl _ _) ok.invariant met with
        ⟨⟨invariant, stepped⟩, remaining⟩
      have holds : (pool.phase client).Holding := by
        rw [holding]
        trivial
      exact
        ok.move follows invariant remaining
          (fun other different =>
            discipline.free_of_heldStep _ _ _ _ _ different stepped)
          (fun other different otherHolding =>
            absurd otherHolding (ok.alone holds different))
          (fun _ => ok.exclusive client holds)
          (fun other _ otherHolding => ok.exclusive other otherHolding)
  | @prepared client operation task done =>
      have own := ok.clients client
      rw [done] at own
      exact
        ok.moveQuietly follows
          (own _ (discipline.freeRely_refl _ _) ok.invariant task rfl)
          (fun holding => holding)
  | nothingToDo done => exact ok.moveQuietly follows trivial fun h => h
  | prepareFailed done => exact ok.moveQuietly follows trivial fun h => h
  | giveUp waiting => exact ok.moveQuietly follows trivial fun h => h
  | @unlock client operation done =>
      have holds : (pool.phase client).Holding := by
        rw [done]
        trivial
      exact
        ok.move follows ok.invariant trivial
          (fun other _ => discipline.freeRely_refl other _)
          (fun other _ _ => discipline.heldRely_refl other _)
          (fun holding => holding.elim)
          (fun other different holding =>
            absurd holding (ok.alone holds different))
  | @unlockFailed client operation error done =>
      have holds : (pool.phase client).Holding := by
        rw [done]
        trivial
      exact
        ok.move follows ok.invariant trivial
          (fun other _ => discipline.freeRely_refl other _)
          (fun other _ _ => discipline.heldRely_refl other _)
          (fun holding => holding.elim)
          (fun other different holding =>
            absurd holding (ok.alone holds different))
  | @lock client operation task waiting free =>
      have own := ok.clients client
      rw [waiting] at own
      exact
        ok.move follows ok.invariant
          (follows.work client operation task pool.state ok.invariant own)
          (fun other _ => discipline.freeRely_refl other _)
          (fun other _ _ => discipline.heldRely_refl other _)
          (fun _ => rfl)
          (fun other _ holding => by
            rw [ok.exclusive other holding] at free
            cases free)
  | atomic waiting free => exact meets.elim
  | @elapse duration =>
      rcases follows.elapse duration pool.state ok.invariant with
        ⟨invariant, others⟩
      exact
        ⟨invariant,
          fun client =>
            (ok.clients client).later follows (others client).1
              fun _ => (others client).2,
          ok.exclusive⟩

/-- Every reachable pool is in order. -/
theorem System.Reaches.ok
    (follows : system.Follows discipline ready)
    {condition : Pool ι Op C R ε β σ → Action ι Op → Prop}
    (meets :
      ∀ pool action, condition pool action → pool.Meets discipline.met action)
    {start pool : Pool ι Op C R ε β σ}
    (ok : start.Ok system discipline ready)
    (reached : system.Reaches condition start pool) :
    pool.Ok system discipline ready := by
  induction reached with
  | refl => exact ok
  | step before allowed stepped hypothesis =>
      exact hypothesis.step follows (meets _ _ allowed) stepped

/-- An action that does not end what a client is at. -/
def Action.Continues (client : ι) : Action ι Op → Prop
  | .settle other => other ≠ client
  | _ => True

instance (client : ι) (action : Action ι Op) :
    Decidable (action.Continues client) :=
  match action with
  | .start _ _ => .isTrue trivial
  | .call _ => .isTrue trivial
  | .settle _ => inferInstanceAs (Decidable (_ ≠ _))
  | .giveUp _ => .isTrue trivial
  | .lock _ => .isTrue trivial
  | .atomic _ => .isTrue trivial
  | .elapse _ => .isTrue trivial

/-- Until its holder settles, the lock is the holder's. -/
theorem Pool.Ok.stepWithin
    (follows : system.Follows discipline ready)
    {client : ι}
    {contract : Contract C σ}
    (relies :
      ∀ state later,
        discipline.heldRely client state later →
          contract.rely state later)
    (stays :
      ∀ state later,
        contract.rely state later → contract.invariant state →
          contract.invariant later)
    (met : ∀ request state, contract.met request state)
    {post : Except ε Unit → σ → Prop}
    {pool next : Pool ι Op C R ε β σ}
    {action : Action ι Op}
    (ok : pool.Ok system discipline ready)
    (meets : pool.Meets discipline.met action)
    (continues : action.Continues client)
    {operation : Op}
    {program : Prog C R ε Unit}
    (holding : pool.phase client = .holding operation program)
    (safe : Safe contract (system.handler client) post program pool.state)
    (holds : contract.invariant pool.state)
    (stepped : system.Step pool action next) :
    ∃ rest,
      next.phase client = .holding operation rest ∧
        Safe contract (system.handler client) post rest next.state ∧
          contract.invariant next.state := by
  have holder : (pool.phase client).Holding := by
    rw [holding]
    trivial
  have taken := ok.exclusive client holder
  have elsewhere
      {mover : ι}
      {state : σ}
      {owner : Option ι}
      {phase : Phase Op C R ε β}
      (different : mover ≠ client)
      (changed : discipline.heldRely client pool.state state) :
      ∃ rest,
        (pool.move mover state owner phase).phase client =
            .holding operation rest ∧
          Safe contract (system.handler client) post rest
            (pool.move mover state owner phase).state ∧
            contract.invariant
              (pool.move mover state owner phase).state := by
    have rely := relies _ _ changed
    exact
      ⟨program, by simpa [Pool.move, different.symm] using holding,
        safe.later rely, stays _ _ rely holds⟩
  have still := discipline.heldRely_refl client pool.state
  cases stepped with
  | @start mover operation idle =>
      have different : mover ≠ client := by
        rintro rfl
        rw [idle] at holding
        cases holding
      exact
        elsewhere different
          ((follows.begin mover _ ok.invariant).2 client
            different.symm).2
  | @prepareCall mover operation request rest preparing =>
      have different : mover ≠ client := by
        rintro rfl
        rw [preparing] at holding
        cases holding
      have promised :
          discipline.met mover operation request pool.state := by
        have next := meets (operation, request)
        rw [preparing] at next
        exact next rfl
      exact
        elsewhere different
          (discipline.held_of_freeStep _ _ _ _ _ different.symm
            (ok.call.1 rest preparing promised))
  | @workCall mover operation request rest moving =>
      by_cases same : mover = client
      · subst same
        rw [moving] at holding
        cases holding
        rcases
            safe pool.state (contract.rely_refl _) holds (met _ _) with
          ⟨⟨kept, -⟩, remaining⟩
        exact
          ⟨_, by simp [Pool.move], remaining, kept⟩
      · refine absurd ?_ (ok.alone holder same)
        rw [moving]
        trivial
  | @prepared mover operation task done =>
      exact elsewhere continues still
  | @nothingToDo mover operation done =>
      exact elsewhere continues still
  | @prepareFailed mover operation error done =>
      exact elsewhere continues still
  | @unlock mover operation done =>
      exact elsewhere continues still
  | @unlockFailed mover operation error done =>
      exact elsewhere continues still
  | @giveUp mover operation task waiting =>
      refine elsewhere ?_ still
      rintro rfl
      rw [waiting] at holding
      cases holding
  | lock waiting free =>
      rw [taken] at free
      cases free
  | atomic waiting free => exact meets.elim
  | @elapse duration =>
      have rely :=
        relies _ _ ((follows.elapse duration _ ok.invariant).2 client).2
      exact ⟨program, holding, safe.later rely, stays _ _ rely holds⟩

/--
A locked section is as safe as its program: whatever the others do until its
holder settles, only what the holder relies on happens in between.
-/
theorem System.Reaches.within
    (follows : system.Follows discipline ready)
    {client : ι}
    {contract : Contract C σ}
    (relies :
      ∀ state later,
        discipline.heldRely client state later →
          contract.rely state later)
    (stays :
      ∀ state later,
        contract.rely state later → contract.invariant state →
          contract.invariant later)
    (met : ∀ request state, contract.met request state)
    {post : Except ε Unit → σ → Prop}
    {condition : Pool ι Op C R ε β σ → Action ι Op → Prop}
    (meets :
      ∀ pool action, condition pool action → pool.Meets discipline.met action)
    (continues :
      ∀ pool action, condition pool action → action.Continues client)
    {start pool : Pool ι Op C R ε β σ}
    (ok : start.Ok system discipline ready)
    {operation : Op}
    {program : Prog C R ε Unit}
    (holding : start.phase client = .holding operation program)
    (safe : Safe contract (system.handler client) post program start.state)
    (holds : contract.invariant start.state)
    (reached : system.Reaches condition start pool) :
    pool.Ok system discipline ready ∧
      ∃ rest,
        pool.phase client = .holding operation rest ∧
          Safe contract (system.handler client) post rest pool.state ∧
            contract.invariant pool.state := by
  induction reached with
  | refl => exact ⟨ok, program, holding, safe, holds⟩
  | step before allowed stepped hypothesis =>
      rcases hypothesis with ⟨ok, rest, holding, safe, holds⟩
      exact
        ⟨ok.step follows (meets _ _ allowed) stepped,
          ok.stepWithin follows relies stays met (meets _ _ allowed)
            (continues _ _ allowed) holding safe holds stepped⟩

end Soundness

/-! ## Whatever the schedule -/

/-- What every preparation promises of the task it finds. -/
def Phase.Promised
    (system : System ι Op C R ε β σ)
    (ready : ι → Op → β → Prop)
    (client : ι) : Phase Op C R ε β → Prop
  | .preparing operation program =>
      ∀ state,
        Safe (Contract.lawless C σ) (system.handler client)
          (whenOk fun prepared _ =>
            ∀ task, prepared = some task → ready client operation task)
          program state
  | .waiting operation task => ready client operation task
  | _ => True

section Promised

variable
    {system : System ι Op C R ε β σ}
    {ready : ι → Op → β → Prop}

theorem Pool.promised_move
    {pool : Pool ι Op C R ε β σ}
    {client : ι}
    {state : σ}
    {holder : Option ι}
    {phase : Phase Op C R ε β}
    (promised :
      ∀ other, (pool.phase other).Promised system ready other)
    (own : phase.Promised system ready client)
    (other : ι) :
    ((pool.move client state holder phase).phase other).Promised system
      ready other := by
  by_cases same : other = client
  · subst same
    simpa [Pool.move] using own
  · simpa [Pool.move, same] using promised other

/-- Promises that need no discipline hold after any steps. -/
theorem System.Reaches.promised
    (promises :
      ∀ client operation state,
        Safe (Contract.lawless C σ) (system.handler client)
          (whenOk fun prepared _ =>
            ∀ task, prepared = some task → ready client operation task)
          (system.prepare operation) state)
    {condition : Pool ι Op C R ε β σ → Action ι Op → Prop}
    {start : σ}
    {pool : Pool ι Op C R ε β σ}
    (reached : system.Reaches condition (.quiet start) pool)
    (client : ι) :
    (pool.phase client).Promised system ready client := by
  induction reached generalizing client with
  | refl => trivial
  | @step pool _ _ before allowed stepped hypothesis =>
      cases stepped with
      | @start mover operation idle =>
          apply Pool.promised_move hypothesis
          exact promises mover operation
      | @prepareCall mover operation request rest preparing =>
          apply Pool.promised_move hypothesis
          intro later
          have own := hypothesis mover
          rw [preparing] at own
          rcases own pool.state pool.state trivial trivial trivial with
            ⟨-, rest⟩
          exact Safe.later (rest : Safe _ _ _ _ _) trivial
      | @prepared mover operation task done =>
          apply Pool.promised_move hypothesis
          have own := hypothesis mover
          rw [done] at own
          exact own pool.state pool.state trivial trivial task rfl
      | elapse => exact hypothesis client
      | _ =>
          apply Pool.promised_move hypothesis
          trivial

end Promised

/-! ## Whole sections -/

/-- Locked work is done in single steps only. -/
def Action.Whole : Action ι Op → Prop
  | .lock _ => False
  | _ => True

instance (action : Action ι Op) : Decidable action.Whole :=
  match action with
  | .start _ _ => .isTrue trivial
  | .call _ => .isTrue trivial
  | .settle _ => .isTrue trivial
  | .giveUp _ => .isTrue trivial
  | .lock _ => .isFalse id
  | .atomic _ => .isTrue trivial
  | .elapse _ => .isTrue trivial

/-- What a client is known to carry while locked work is whole. -/
def Phase.Carries
    (system : System ι Op C R ε β σ)
    (contract : Contract C σ)
    (ready : Op → β → σ → Prop)
    (client : ι)
    (state : σ) : Phase Op C R ε β → Prop
  | .idle => True
  | .preparing operation program =>
      Safe contract (system.handler client)
        (whenOk fun prepared later =>
          ∀ task, prepared = some task → ready operation task later)
        program state
  | .waiting operation task => ready operation task state
  | .holding _ _ => False

/-- Preparations keep to a contract, and carry what they have found. -/
structure System.Prepares
    (system : System ι Op C R ε β σ)
    (contract : Contract C σ)
    (ready : Op → β → σ → Prop) : Prop where
  fair :
    ∀ state later,
      contract.guarantee state later → contract.rely state later
  met : ∀ request state, contract.met request state
  stable :
    ∀ operation task state later,
      contract.rely state later →
        ready operation task state → ready operation task later
  begin :
    ∀ client state,
      contract.invariant state →
        contract.invariant (system.begin client state) ∧
          contract.rely state (system.begin client state)
  elapse :
    ∀ duration state,
      contract.invariant state →
        contract.invariant (system.elapse duration state) ∧
          contract.rely state (system.elapse duration state)
  prepare :
    ∀ client operation state,
      Safe contract (system.handler client)
        (whenOk fun prepared later =>
          ∀ task, prepared = some task → ready operation task later)
        (system.prepare operation) state

/-- Whole sections keep to the contract as well. -/
structure System.Keeps
    (system : System ι Op C R ε β σ)
    (contract : Contract C σ)
    (ready : Op → β → σ → Prop) : Prop
    extends System.Prepares system contract ready where
  work :
    ∀ client operation task state,
      contract.invariant state → ready operation task state →
        contract.invariant
            (run (system.handler client) (system.work task) state).2 ∧
          contract.rely state
            (run (system.handler client) (system.work task) state).2

/-- The invariant, and what every client carries. -/
structure Pool.Kept
    (system : System ι Op C R ε β σ)
    (contract : Contract C σ)
    (ready : Op → β → σ → Prop)
    (pool : Pool ι Op C R ε β σ) : Prop where
  holds : contract.invariant pool.state
  clients :
    ∀ client,
      (pool.phase client).Carries system contract ready client pool.state

section Whole

variable
    {system : System ι Op C R ε β σ}
    {contract : Contract C σ}
    {ready : Op → β → σ → Prop}

omit [DecidableEq ι] in
theorem Phase.Carries.later
    (prepares : system.Prepares contract ready)
    {client : ι}
    {state later : σ}
    {phase : Phase Op C R ε β}
    (carries : phase.Carries system contract ready client state)
    (rely : contract.rely state later) :
    phase.Carries system contract ready client later := by
  cases phase with
  | idle => trivial
  | preparing operation program => exact Safe.later carries rely
  | waiting operation task =>
      exact prepares.stable operation task _ _ rely carries
  | holding operation program => exact carries.elim

theorem Pool.Kept.move
    (prepares : system.Prepares contract ready)
    {pool : Pool ι Op C R ε β σ}
    (kept : pool.Kept system contract ready)
    {client : ι}
    {state : σ}
    {holder : Option ι}
    {phase : Phase Op C R ε β}
    (holds : contract.invariant state)
    (rely : contract.rely pool.state state)
    (own : phase.Carries system contract ready client state) :
    (pool.move client state holder phase).Kept system contract ready where
  holds := holds
  clients := by
    intro other
    by_cases same : other = client
    · subst same
      simpa [Pool.move] using own
    · simpa [Pool.move, same] using (kept.clients other).later prepares rely

/--
A step that takes no lock keeps everything, if the section it may consist of
does.
-/
theorem Pool.Kept.step
    (prepares : system.Prepares contract ready)
    {pool next : Pool ι Op C R ε β σ}
    {action : Action ι Op}
    (kept : pool.Kept system contract ready)
    (whole : action.Whole)
    (work :
      ∀ client operation task,
        action = .atomic client →
          pool.phase client = .waiting operation task →
            ready operation task pool.state →
              contract.invariant
                  (run (system.handler client) (system.work task)
                    pool.state).2 ∧
                contract.rely pool.state
                  (run (system.handler client) (system.work task)
                    pool.state).2)
    (stepped : system.Step pool action next) :
    next.Kept system contract ready := by
  have still := contract.rely_refl pool.state
  cases stepped with
  | @start client operation idle =>
      rcases prepares.begin client _ kept.holds with ⟨holds, rely⟩
      exact
        kept.move prepares holds rely (prepares.prepare client operation _)
  | @prepareCall client operation request rest preparing =>
      have own := kept.clients client
      rw [preparing] at own
      rcases own pool.state still kept.holds (prepares.met _ _) with
        ⟨⟨holds, guarantee⟩, remaining⟩
      exact kept.move prepares holds (prepares.fair _ _ guarantee) remaining
  | @workCall client operation request rest holding =>
      have own := kept.clients client
      rw [holding] at own
      exact own.elim
  | @prepared client operation task done =>
      have own := kept.clients client
      rw [done] at own
      exact
        kept.move prepares kept.holds still
          (own pool.state still kept.holds task rfl)
  | nothingToDo done => exact kept.move prepares kept.holds still trivial
  | prepareFailed done => exact kept.move prepares kept.holds still trivial
  | unlock done => exact kept.move prepares kept.holds still trivial
  | unlockFailed done => exact kept.move prepares kept.holds still trivial
  | giveUp waiting => exact kept.move prepares kept.holds still trivial
  | lock waiting free => exact whole.elim
  | @atomic client operation task waiting free =>
      have own := kept.clients client
      rw [waiting] at own
      rcases work client operation task rfl waiting own with
        ⟨holds, rely⟩
      exact kept.move prepares holds rely trivial
  | @elapse duration =>
      rcases prepares.elapse duration _ kept.holds with ⟨holds, rely⟩
      exact
        ⟨holds, fun client => (kept.clients client).later prepares rely⟩

/--
While locked work is whole, every pool reached keeps the contract as long as
the sections the condition allows keep it.
-/
theorem System.Reaches.keptWhile
    (prepares : system.Prepares contract ready)
    {condition : Pool ι Op C R ε β σ → Action ι Op → Prop}
    (whole : ∀ pool action, condition pool action → action.Whole)
    (work :
      ∀ pool client operation task,
        condition pool (.atomic client) →
          pool.phase client = .waiting operation task →
            contract.invariant pool.state →
              ready operation task pool.state →
                contract.invariant
                    (run (system.handler client) (system.work task)
                      pool.state).2 ∧
                  contract.rely pool.state
                    (run (system.handler client) (system.work task)
                      pool.state).2)
    {start : σ}
    (initial : contract.invariant start)
    {pool : Pool ι Op C R ε β σ}
    (reached : system.Reaches condition (.quiet start) pool) :
    pool.Kept system contract ready := by
  induction reached with
  | refl => exact ⟨initial, fun _ => trivial⟩
  | @step pool next action before allowed stepped hypothesis =>
      refine
        hypothesis.step prepares (whole _ _ allowed) ?_ stepped
      rintro client operation task rfl waiting carried
      exact
        work pool client operation task allowed waiting hypothesis.holds
          carried

/-- While locked work is whole, every pool reached keeps the contract. -/
theorem System.Reaches.kept
    (keeps : system.Keeps contract ready)
    {condition : Pool ι Op C R ε β σ → Action ι Op → Prop}
    (whole : ∀ pool action, condition pool action → action.Whole)
    {start : σ}
    (initial : contract.invariant start)
    {pool : Pool ι Op C R ε β σ}
    (reached : system.Reaches condition (.quiet start) pool) :
    pool.Kept system contract ready := by
  refine reached.keptWhile keeps.toPrepares whole ?_ initial
  intro pool client operation task _ _ holds carried
  exact keeps.work client operation task _ holds carried

/-- While locked work is whole, a run changes what the contract lets it. -/
theorem System.Reaches.relied
    (keeps : system.Keeps contract ready)
    {condition : Pool ι Op C R ε β σ → Action ι Op → Prop}
    (whole : ∀ pool action, condition pool action → action.Whole)
    {start : σ}
    (initial : contract.invariant start)
    {pool : Pool ι Op C R ε β σ}
    (reached : system.Reaches condition (.quiet start) pool) :
    contract.rely start pool.state := by
  induction reached with
  | refl => exact contract.rely_refl start
  | @step pool next action before allowed stepped hypothesis =>
      have kept := before.kept keeps whole initial
      have still := contract.rely_refl pool.state
      apply contract.rely_trans _ _ _ hypothesis
      cases stepped with
      | @start client operation idle =>
          exact (keeps.begin client _ kept.holds).2
      | @prepareCall client operation request rest preparing =>
          have own := kept.clients client
          rw [preparing] at own
          exact
            keeps.fair _ _
              (own pool.state still kept.holds (keeps.met _ _)).1.2
      | @workCall client operation request rest holding =>
          have own := kept.clients client
          rw [holding] at own
          exact own.elim
      | lock waiting free => exact (whole _ _ allowed).elim
      | @atomic client operation task waiting free =>
          have own := kept.clients client
          rw [waiting] at own
          exact (keeps.work client operation task _ kept.holds own).2
      | @elapse duration => exact (keeps.elapse duration _ kept.holds).2
      | _ => exact still

end Whole

end CallProgram
