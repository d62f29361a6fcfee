import GitRemoteObjectStore.Library.Pool

/-!
# Clients with limited authority

Every operation is allowed some calls.  Where preparations and locked work
issue only what their operation is allowed, whatever the replies, so does
every client of a reachable pool: a change of the state is traced to a call
its operation was allowed, and what no allowed call ends lasts.
-/

namespace CallProgram

open Prog

variable
    {ι Op C : Type}
    {R : C → Type}
    {ε β σ γ : Type}
    [DecidableEq ι]

/-- Operations issue the calls they are allowed. -/
structure System.Obeys
    (system : System ι Op C R ε β σ)
    (credible : (request : C) → R request → Prop)
    (allowed : Op → C → Prop) : Prop where
  honest :
    ∀ client request state,
      credible request (system.handler client request state).1
  prepare :
    ∀ operation,
      Issues credible (allowed operation) (system.prepare operation)
  work :
    ∀ operation task,
      Issues credible (allowed operation) (system.work task)

/-- What a client is still going to call is allowed. -/
def Phase.Obeys
    (credible : (request : C) → R request → Prop)
    (allowed : Op → C → Prop) : Phase Op C R ε β → Prop
  | .preparing operation program =>
      Issues credible (allowed operation) program
  | .holding operation program =>
      Issues credible (allowed operation) program
  | _ => True

variable
    {system : System ι Op C R ε β σ}
    {credible : (request : C) → R request → Prop}
    {allowed : Op → C → Prop}
    {pool next : Pool ι Op C R ε β σ}

omit [DecidableEq ι] in
theorem Phase.Obeys.call
    {phase : Phase Op C R ε β}
    (obeys : phase.Obeys credible allowed)
    {operation : Op}
    {request : C}
    (calls : phase.nextCall? = some (operation, request)) :
    allowed operation request := by
  cases phase with
  | idle => cases calls
  | waiting operation task => cases calls
  | preparing operation program =>
      cases program with
      | done value => cases calls
      | fail error => cases calls
      | call request rest =>
          cases calls
          exact obeys.1
  | holding operation program =>
      cases program with
      | done value => cases calls
      | fail error => cases calls
      | call request rest =>
          cases calls
          exact obeys.1

/-- A step leaves clients within their authority if its replies are credible. -/
theorem System.Step.obeys
    (honest :
      ∀ client request,
        credible request (system.handler client request pool.state).1)
    {action : Action ι Op}
    (prepare :
      ∀ client operation,
        action = .start client operation →
          Issues credible (allowed operation) (system.prepare operation))
    (work :
      ∀ operation task,
        Issues credible (allowed operation) (system.work task))
    (clients : ∀ client, (pool.phase client).Obeys credible allowed)
    (stepped : system.Step pool action next) :
    ∀ client, (next.phase client).Obeys credible allowed := by
  have moved
      {client : ι}
      {state : σ}
      {holder : Option ι}
      {phase : Phase Op C R ε β}
      (obedient : phase.Obeys credible allowed)
      (other : ι) :
      ((pool.move client state holder phase).phase other).Obeys credible
        allowed := by
    by_cases own : other = client
    · subst own
      simp only [Pool.move, Function.update_self]
      exact obedient
    · simp only [Pool.move, Function.update_of_ne own]
      exact clients other
  cases stepped with
  | start idle => exact moved (prepare _ _ rfl)
  | @prepareCall client operation request rest preparing =>
      have own := clients client
      rw [preparing] at own
      apply moved
      exact own.2 _ (honest client request)
  | @workCall client operation request rest holding =>
      have own := clients client
      rw [holding] at own
      apply moved
      exact own.2 _ (honest client request)
  | lock waiting free => exact moved (work _ _)
  | elapse => exact clients
  | _ => exact moved trivial

/-- A step of a pool leaves every client within its authority. -/
theorem System.Obeys.step
    (obeys : system.Obeys credible allowed)
    {action : Action ι Op}
    (clients : ∀ client, (pool.phase client).Obeys credible allowed)
    (stepped : system.Step pool action next) :
    ∀ client, (next.phase client).Obeys credible allowed :=
  stepped.obeys (fun client request => obeys.honest client request _)
    (fun _ _ _ => obeys.prepare _) obeys.work clients

/-- Every client of a reachable pool is within its authority. -/
theorem System.Obeys.reaches
    (obeys : system.Obeys credible allowed)
    {condition : Pool ι Op C R ε β σ → Action ι Op → Prop}
    (reached : system.Reaches condition pool next)
    (clients : ∀ client, (pool.phase client).Obeys credible allowed) :
    ∀ client, (next.phase client).Obeys credible allowed := by
  induction reached with
  | refl => exact clients
  | step before _ stepped hypothesis => exact obeys.step hypothesis stepped

omit [DecidableEq ι] in
theorem Pool.obeys_quiet
    {state : σ}
    (client : ι) :
    ((Pool.quiet state : Pool ι Op C R ε β σ).phase client).Obeys credible
      allowed :=
  trivial

/-- What a step does to the state, locked work being done call by call. -/
theorem System.Step.state_cases
    {action : Action ι Op}
    (stepped : system.Step pool action next)
    (interleaved : ∀ client, action ≠ .atomic client) :
    (∃ client operation request,
        action = .call client ∧
          (pool.phase client).nextCall? = some (operation, request) ∧
          next.state = (system.handler client request pool.state).2) ∨
      (∃ client, next.state = system.begin client pool.state) ∨
      (∃ duration, next.state = system.elapse duration pool.state) ∨
      next.state = pool.state := by
  cases stepped with
  | @start client operation idle => exact Or.inr (Or.inl ⟨client, rfl⟩)
  | @prepareCall client operation request rest preparing =>
      left
      exact ⟨client, operation, request, rfl, by rw [preparing]; rfl, rfl⟩
  | @workCall client operation request rest holding =>
      left
      exact ⟨client, operation, request, rfl, by rw [holding]; rfl, rfl⟩
  | atomic waiting free => exact absurd rfl (interleaved _)
  | @elapse duration => exact Or.inr (Or.inr (Or.inl ⟨duration, rfl⟩))
  | _ => exact Or.inr (Or.inr (Or.inr rfl))

variable
    {met met' : ι → Op → C → σ → Prop}
    {start : σ}

omit [DecidableEq ι] in
/-- A call that meets a condition. -/
theorem Pool.Meets.call
    {client : ι}
    (meets : pool.Meets met (.call client))
    {operation : Op}
    {request : C}
    (calls : (pool.phase client).nextCall? = some (operation, request)) :
    met client operation request pool.state :=
  meets (operation, request) calls

omit [DecidableEq ι] in
theorem Pool.Meets.interleaved
    {action : Action ι Op}
    (meets : pool.Meets met action)
    (client : ι) :
    action ≠ .atomic client := by
  rintro rfl
  exact meets

/-- What neither beginning nor waiting changes, an allowed call changed. -/
theorem System.Obeys.changed
    (obeys : system.Obeys credible allowed)
    (reached :
      system.Reaches (fun pool => pool.Meets met) (.quiet start) pool)
    {action : Action ι Op}
    (meets : pool.Meets met action)
    (stepped : system.Step pool action next)
    (view : σ → γ)
    (begin :
      ∀ client state, view (system.begin client state) = view state)
    (elapse :
      ∀ duration state, view (system.elapse duration state) = view state)
    (changed : view next.state ≠ view pool.state) :
    ∃ client operation request,
      action = .call client ∧
        (pool.phase client).nextCall? = some (operation, request) ∧
        allowed operation request ∧
        next.state = (system.handler client request pool.state).2 := by
  rcases stepped.state_cases meets.interleaved with
    ⟨client, operation, request, called, calls, state⟩ |
      ⟨client, state⟩ | ⟨duration, state⟩ | state
  · have own := obeys.reaches reached Pool.obeys_quiet client
    exact
      ⟨client, operation, request, called, calls, own.call calls, state⟩
  · exact absurd (by rw [state, begin]) changed
  · exact absurd (by rw [state, elapse]) changed
  · exact absurd (by rw [state]) changed

/-- What allowed calls, beginning and waiting keep lasts. -/
theorem System.Obeys.lasts
    (obeys : system.Obeys credible allowed)
    (reached :
      system.Reaches (fun pool => pool.Meets met) (.quiet start) pool)
    (more : system.Reaches (fun pool => pool.Meets met') pool next)
    (keeps : σ → Prop)
    (begin :
      ∀ client state, keeps state → keeps (system.begin client state))
    (elapse :
      ∀ duration state,
        keeps state → keeps (system.elapse duration state))
    (call :
      ∀ client operation request state,
        met' client operation request state →
        allowed operation request → keeps state →
          keeps (system.handler client request state).2)
    (holds : keeps pool.state) :
    keeps next.state := by
  induction more with
  | refl => exact holds
  | @step middle last action before meets stepped hypothesis =>
      have clients :=
        obeys.reaches before (obeys.reaches reached Pool.obeys_quiet)
      rcases stepped.state_cases meets.interleaved with
        ⟨client, operation, request, rfl, calls, state⟩ |
          ⟨client, state⟩ | ⟨duration, state⟩ | state
      · rw [state]
        exact
          call client operation request _ (meets.call calls)
            ((clients client).call calls) hypothesis
      · rw [state]
        exact begin client _ hypothesis
      · rw [state]
        exact elapse duration _ hypothesis
      · rw [state]
        exact hypothesis

/--
A preparation that is safe where the others only make allowed calls is safe
at whatever point it has come to.
-/
theorem System.Obeys.promised
    (obeys : system.Obeys credible allowed)
    (contract : Contract C σ)
    (post : Op → Except ε (Option β) → σ → Prop)
    (always :
      ∀ request state,
        contract.invariant state ∧ contract.met request state)
    (prepare :
      ∀ client operation state,
        Safe contract (system.handler client) (post operation)
          (system.prepare operation) state)
    (begin :
      ∀ client state, contract.rely state (system.begin client state))
    (elapse :
      ∀ duration state,
        contract.rely state (system.elapse duration state))
    (call :
      ∀ client operation request state,
        met client operation request state → allowed operation request →
          contract.rely state (system.handler client request state).2)
    (reached :
      system.Reaches (fun pool => pool.Meets met) (.quiet start) pool) :
    ∀ client operation program,
      pool.phase client = .preparing operation program →
        Safe contract (system.handler client) (post operation) program
          pool.state := by
  induction reached with
  | refl =>
      intro client operation program preparing
      cases preparing
  | @step pool next action before meets stepped hypothesis =>
      have clients := obeys.reaches before Pool.obeys_quiet
      have evolves : contract.rely pool.state next.state := by
        rcases stepped.state_cases meets.interleaved with
          ⟨client, operation, request, rfl, calls, state⟩ |
            ⟨client, state⟩ | ⟨duration, state⟩ | state
        · rw [state]
          exact
            call client operation request _ (meets.call calls)
              ((clients client).call calls)
        · rw [state]
          exact begin client _
        · rw [state]
          exact elapse duration _
        · rw [state]
          exact contract.rely_refl _
      intro other operation program preparing
      -- Whoever has not moved is where it was.
      by_cases unmoved : next.phase other = pool.phase other
      · rw [unmoved] at preparing
        exact (hypothesis other operation program preparing).later evolves
      have own
          {client : ι}
          {state : σ}
          {holder : Option ι}
          {phase : Phase Op C R ε β}
          (moved : next = pool.move client state holder phase) :
          other = client ∧ phase = .preparing operation program := by
        subst moved
        by_cases same : other = client
        · subst same
          simp only [Pool.move, Function.update_self] at preparing
          exact ⟨rfl, preparing⟩
        · simp only [Pool.move, Function.update_of_ne same,
            not_true_eq_false] at unmoved
      cases stepped with
      | start idle =>
          rcases own rfl with ⟨rfl, same⟩
          cases same
          exact prepare _ _ _
      | @prepareCall client operation request rest waiting =>
          rcases own rfl with ⟨rfl, same⟩
          cases same
          have calling := hypothesis _ _ _ waiting
          have promised := always request pool.state
          exact
            (calling pool.state (contract.rely_refl _) promised.1
              promised.2).2
      | elapse => exact absurd rfl unmoved
      | _ =>
          rcases own rfl with ⟨rfl, same⟩
          cases same

/-! ## Replies that an invariant vouches for -/

/-- What is credible of the replies may be weakened. -/
theorem Prog.Issues.trusting
    {α : Type}
    {trusted : (request : C) → R request → Prop}
    {permitted : C → Prop}
    (implies : ∀ request reply, trusted request reply → credible request reply)
    {program : Prog C R ε α}
    (issues : Issues credible permitted program) :
    Issues trusted permitted program := by
  induction program with
  | done value => trivial
  | fail error => trivial
  | call request rest hypothesis =>
      exact
        ⟨issues.1, fun reply likely =>
          hypothesis reply (issues.2 reply (implies _ _ likely))⟩

/-- A program issues permitted calls, and returns good results. -/
structure Prog.Works
    {α : Type}
    (credible : (request : C) → R request → Prop)
    (permitted : C → Prop)
    (good : α → Prop)
    (program : Prog C R ε α) : Prop where
  issues : Issues credible permitted program
  returns : Returns credible good program

section Works

variable
    {α α' ε' : Type}
    {permitted : C → Prop}

theorem Prog.Works.bind
    {good : α → Prop}
    {last : α' → Prop}
    {program : Prog C R ε α}
    {next : α → Prog C R ε α'}
    (first : Works credible permitted good program)
    (second : ∀ value, good value → Works credible permitted last (next value)) :
    Works credible permitted last (program >>= next) where
  issues :=
    first.issues.bindReturns first.returns fun value known =>
      (second value known).issues
  returns :=
    first.returns.bind fun value known => (second value known).returns

theorem Prog.Works.mapError
    {good : α → Prop}
    {convert : ε → ε'}
    {program : Prog C R ε α}
    (works : Works credible permitted good program) :
    Works credible permitted good (program.mapError convert) :=
  ⟨works.issues.mapError, works.returns.mapError⟩

theorem Prog.works_done
    {good : α → Prop}
    {value : α}
    (holds : good value) :
    Works credible permitted good (.done value : Prog C R ε α) :=
  ⟨trivial, holds⟩

/-- What is computed on the way is known to have been computed. -/
theorem Prog.works_ofExcept (outcome : Except ε α) :
    Works credible permitted (fun value => outcome = .ok value)
      (ofExcept outcome : Prog C R ε α) := by
  refine ⟨issues_ofExcept outcome, ?_⟩
  cases outcome with
  | ok value => exact rfl
  | error error => trivial

/-- What follows a value that has been computed. -/
theorem Prog.issues_checked
    {outcome : Except ε α}
    {next : α → Prog C R ε α'}
    (rest :
      ∀ value, outcome = .ok value →
        Issues credible permitted (next value)) :
    Issues credible permitted (ofExcept outcome >>= next) := by
  cases outcome with
  | ok value => exact rest value rfl
  | error error => trivial

/-- What follows a value that has been computed, its error renamed. -/
theorem Prog.issues_checkedAs
    {convert : ε' → ε}
    {outcome : Except ε' α}
    {next : α → Prog C R ε α'}
    (rest :
      ∀ value, outcome = .ok value →
        Issues credible permitted (next value)) :
    Issues credible permitted
      ((ofExcept outcome).mapError convert >>= next) := by
  cases outcome with
  | ok value => exact rest value rfl
  | error error => trivial

/-- A program nothing is asked of the results of. -/
theorem Prog.Issues.works
    {program : Prog C R ε α}
    (issues : Issues credible permitted program) :
    Works credible permitted (fun _ => True) program :=
  ⟨issues, returns_any program⟩

end Works

/--
Operations of a kind issue the calls they are allowed as long as the replies
are what an invariant makes them, and those calls keep the invariant.
-/
structure System.Vouches
    (system : System ι Op C R ε β σ)
    (kind : Op → Prop)
    (invariant : σ → Prop)
    (credible : (request : C) → R request → Prop)
    (allowed : Op → C → Prop) : Prop where
  honest :
    ∀ client request state,
      invariant state →
        credible request (system.handler client request state).1
  keeps :
    ∀ client operation request state,
      allowed operation request → invariant state →
        invariant (system.handler client request state).2
  begin : ∀ client state, invariant state → invariant (system.begin client state)
  elapse :
    ∀ duration state, invariant state → invariant (system.elapse duration state)
  prepare :
    ∀ operation,
      kind operation →
        Issues credible (allowed operation) (system.prepare operation)
  work :
    ∀ operation task,
      Issues credible (allowed operation) (system.work task)

/-- The invariant holds in every pool reached by operations of the kind. -/
theorem System.Vouches.holds
    {kind : Op → Prop}
    {invariant : σ → Prop}
    (vouches : system.Vouches kind invariant credible allowed)
    {condition : Pool ι Op C R ε β σ → Action ι Op → Prop}
    (starts :
      ∀ pool client operation,
        condition pool (.start client operation) → kind operation)
    (interleaved :
      ∀ pool action,
        condition pool action → ∀ client, action ≠ .atomic client)
    (initial : invariant start)
    (reached : system.Reaches condition (.quiet start) pool) :
    invariant pool.state ∧
      ∀ client, (pool.phase client).Obeys credible allowed := by
  induction reached with
  | refl => exact ⟨initial, Pool.obeys_quiet⟩
  | @step pool next action before allows stepped hypothesis =>
      rcases hypothesis with ⟨holds, clients⟩
      constructor
      · rcases stepped.state_cases (interleaved _ _ allows) with
          ⟨client, operation, request, rfl, calls, state⟩ |
            ⟨client, state⟩ | ⟨duration, state⟩ | state
        · rw [state]
          exact
            vouches.keeps client operation request _
              ((clients client).call calls) holds
        · rw [state]
          exact vouches.begin client _ holds
        · rw [state]
          exact vouches.elapse duration _ holds
        · rw [state]
          exact holds
      · apply
          stepped.obeys
            (fun client request => vouches.honest client request _ holds)
            _ vouches.work clients
        rintro client operation rfl
        exact vouches.prepare operation (starts _ _ _ allows)

/-! ## Where the operations come from -/

/-- Steps that meet a condition meet what it implies. -/
theorem System.Reaches.weaken
    {condition weaker : Pool ι Op C R ε β σ → Action ι Op → Prop}
    {first : Pool ι Op C R ε β σ}
    (implies :
      ∀ pool action, condition pool action → weaker pool action)
    (reached : system.Reaches condition first pool) :
    system.Reaches weaker first pool := by
  induction reached with
  | refl => exact .refl
  | step before allowed stepped hypothesis =>
      exact hypothesis.step (implies _ _ allowed) stepped

/-- The operation of a client, if any, is one of a kind. -/
def Phase.Of (kind : Op → Prop) : Phase Op C R ε β → Prop
  | .idle => True
  | .preparing operation _ => kind operation
  | .waiting operation _ => kind operation
  | .holding operation _ => kind operation

omit [DecidableEq ι] in
theorem Phase.Of.call
    {kind : Op → Prop}
    {phase : Phase Op C R ε β}
    (own : phase.Of kind)
    {operation : Op}
    {request : C}
    (calls : phase.nextCall? = some (operation, request)) :
    kind operation := by
  cases phase with
  | idle => cases calls
  | waiting operation task => cases calls
  | preparing operation program =>
      cases program <;> cases calls
      exact own
  | holding operation program =>
      cases program <;> cases calls
      exact own

/-- Clients are at operations that were started. -/
theorem System.Reaches.started
    {condition : Pool ι Op C R ε β σ → Action ι Op → Prop}
    {kind : Op → Prop}
    (starts :
      ∀ pool client operation,
        condition pool (.start client operation) → kind operation)
    (reached : system.Reaches condition (.quiet start) pool) :
    ∀ client, (pool.phase client).Of kind := by
  induction reached with
  | refl => exact fun _ => trivial
  | @step pool next action before allowed stepped hypothesis =>
      have moved
          {client : ι}
          {state : σ}
          {holder : Option ι}
          {phase : Phase Op C R ε β}
          (own : phase.Of kind)
          (other : ι) :
          ((pool.move client state holder phase).phase other).Of kind := by
        by_cases same : other = client
        · subst same
          simp only [Pool.move, Function.update_self]
          exact own
        · simp only [Pool.move, Function.update_of_ne same]
          exact hypothesis other
      cases stepped with
      | start idle => exact moved (starts _ _ _ allowed)
      | @prepareCall client operation request rest preparing =>
          have own := hypothesis client
          rw [preparing] at own
          exact moved own
      | @workCall client operation request rest holding =>
          have own := hypothesis client
          rw [holding] at own
          exact moved own
      | @prepared client operation task done =>
          have own := hypothesis client
          rw [done] at own
          exact moved own
      | @lock client operation task waiting free =>
          have own := hypothesis client
          rw [waiting] at own
          exact moved own
      | elapse => exact hypothesis
      | _ => exact moved trivial

/-- A schedule all of whose actions are of a kind. -/
theorem System.Reaches.scheduled
    {condition : Pool ι Op C R ε β σ → Action ι Op → Prop}
    [∀ pool action, Decidable (condition pool action)]
    {kind : Action ι Op → Prop}
    {first : Pool ι Op C R ε β σ}
    (before :
      system.Reaches (fun pool action => condition pool action ∧ kind action)
        first pool)
    {actions : List (Action ι Op)}
    (kinds : ∀ action ∈ actions, kind action)
    (executed : system.schedule? condition actions pool = some next) :
    system.Reaches (fun pool action => condition pool action ∧ kind action)
      first next := by
  induction actions generalizing pool with
  | nil =>
      cases executed
      exact before
  | cons action rest hypothesis =>
      rw [List.forall_mem_cons] at kinds
      simp only [System.schedule?] at executed
      split at executed
      next meets =>
          rcases Option.bind_eq_some_iff.1 executed with
            ⟨middle, stepped, more⟩
          exact
            hypothesis
              (before.step ⟨meets, kinds.1⟩ (System.step_of_step? stepped))
              kinds.2 more
      next => cases executed

end CallProgram
