import GitRemoteObjectStore.Interference
import GitRemoteObjectStore.PackchainRuns

/-!
# Updates of the manifest

Clients of one packchain reference whose locked sections are single steps.
What a push commits is computed from the chain its preparation read; under
the lock only the tips are compared.  The push is an update of the current
chain exactly when that chain is still the one it read.
-/

namespace GitRemoteObjectStore.ManifestUpdate

open CallProgram Prog Packchain

section Clients

variable
    [Platform]
    {bucketPrefix : Option Text}
    {refName : RefName}
    {ι : Type}

/-- What a prepared push is known to carry. -/
structure PushPrepared (refName : RefName) (ready : ReadyState) : Prop where
  remoteRef : ready.remoteRef = refName
  version :
    ∀ prior, ready.prior = some prior →
      prior.v = ChainManifest.schemaVersion

/-- What a waiting client's task is known to carry. -/
def Prepared
    (refName : RefName)
    (_client : ι)
    (_operation : Operation) : Task → Prop
  | .push _ ready => PushPrepared refName ready
  | _ => True

variable [DecidableEq ι]

/-- Whatever the others do, programs run. -/
theorem safe_lawless
    {ε α : Type}
    {client : ι}
    {program : Program ε α}
    {state : Watched ι} :
    Safe (Contract.lawless Call (Watched ι)) (Watched.watch client)
      (fun _ _ => True) program state := by
  induction program generalizing state with
  | done value => exact fun _ _ _ => trivial
  | fail error => exact fun _ _ _ => trivial
  | call request next hypothesis =>
      intro later _ _ _
      exact ⟨⟨trivial, trivial⟩, hypothesis _⟩

theorem safe_preparePush
    {client : ι}
    {state : Watched ι}
    (repo : LocalRepo)
    (force : Bool)
    (localSpec : Text) :
    Safe (Contract.lawless Call (Watched ι)) (Watched.watch client)
      (whenOk fun prepared _ =>
        ∀ ready, prepared = .ready ready → PushPrepared refName ready)
      (preparePush bucketPrefix repo ⟨force, localSpec, refName⟩)
      state := by
  have reading :
      Safe (Contract.lawless Call (Watched ι)) (Watched.watch client)
        (whenOk fun prior _ =>
          ∀ chain, prior = some chain →
            chain.v = ChainManifest.schemaVersion)
        (loadChain bucketPrefix refName) state := by
    apply safe_loadChain
    · intro _
      trivial
    · intro found later _ _ _ _ _
      cases loaded :
          loadedChain
            (found.world.body? (chainKey bucketPrefix refName)) with
      | error error => trivial
      | ok prior =>
          rintro chain rfl
          exact loadedChain_version loaded
  unfold preparePush
  apply reading.convert.andThen
  intro prior read _ version
  apply Safe.check
  intro probe _
  cases probe with
  | error refusal =>
      intro _ _ _ _ same
      cases same
  | ok found =>
      simp only
      split
      · intro _ _ _ _ same
        cases same
      apply Safe.checkAs
      intro built _
      apply safe_lawless.keeping
      intro _ uploaded _ _ _ _ _ ready same
      cases same
      exact ⟨rfl, version⟩

theorem safe_prepare
    (client : ι)
    (operation : Operation)
    (state : Watched ι) :
    Safe (Contract.lawless Call (Watched ι)) (Watched.watch client)
      (whenOk fun prepared _ =>
        ∀ task, prepared = some task →
          Prepared refName client operation task)
      (prepare bucketPrefix refName operation) state := by
  cases operation with
  | push repo force localSpec =>
      simp only [prepare]
      split
      · intro _ _ _ task same
        cases same
        trivial
      apply (safe_preparePush repo force localSpec).attempt.andThen
      intro outcome prepared _ carried later _ _ task same
      cases outcome with
      | error error => cases same
      | ok outcome =>
          cases outcome with
          | done outcome => cases same
          | ready ready =>
              cases same
              exact carried ready rfl
  | compact scratch force =>
      apply safe_lawless.keeping
      intro outcome _ _ _ _ _ _ task same
      rcases outcome with _ | _ | _ <;> cases same
      trivial
  | deleteBranch confirmed =>
      apply safe_lawless.keeping
      intro outcome _ _ _ _ _ _ task same
      rcases outcome with _ | _ | _ <;> cases same
      trivial

/-- A waiting push carries what its preparation read. -/
theorem pushPrepared_of_waiting
    {condition :
      Pool ι Operation Call Reply Unit Task (Watched ι) →
        Action ι Operation → Prop}
    {start : Watched ι}
    {pool : Pool ι Operation Call Reply Unit Task (Watched ι)}
    {client : ι}
    {operation : Operation}
    {repo : LocalRepo}
    {ready : ReadyState}
    (reached :
      (clients bucketPrefix refName ι).Reaches condition (.quiet start)
        pool)
    (waiting : pool.phase client = .waiting operation (.push repo ready)) :
    PushPrepared refName ready := by
  have promised :=
    reached.promised (fun client operation state =>
      safe_prepare client operation state) client
  rw [waiting] at promised
  exact promised

/-- Locked work is done in single steps only. -/
def WholeSections
    (_pool : Pool ι Operation Call Reply Unit Task (Watched ι)) :
    Action ι Operation → Prop
  | .lock _ => False
  | _ => True

instance
    (pool : Pool ι Operation Call Reply Unit Task (Watched ι))
    (action : Action ι Operation) :
    Decidable (WholeSections pool action) :=
  match action with
  | .start _ _ => .isTrue trivial
  | .call _ => .isTrue trivial
  | .settle _ => .isTrue trivial
  | .giveUp _ => .isTrue trivial
  | .lock _ => .isFalse id
  | .atomic _ => .isTrue trivial
  | .elapse _ => .isTrue trivial

/-! ## The committed manifest -/

omit [DecidableEq ι] in
/-- A push that reports success has written its manifest. -/
theorem chain?_of_commits
    {repo : LocalRepo}
    {ready : ReadyState}
    {world : World}
    (commits :
      (run answer (performPushUnderLock bucketPrefix repo ready)
        world).1 = .ok (.ok ready.remoteRef)) :
    (run answer (performPushUnderLock bucketPrefix repo ready)
          world).2.chain? bucketPrefix ready.remoteRef =
        some (committedManifest ready) ∧
      (ready.force = false →
        ready.prior.map ChainManifest.tip =
          (world.chain? bucketPrefix ready.remoteRef).map
            ChainManifest.tip) := by
  rcases run_performPushUnderLock repo ready world with
    ⟨pathIndex, ⟨current, loaded, -, sameTips, -⟩, ran⟩ |
      ⟨-, outcome, failed, ran⟩
  · rw [ran]
    constructor
    · exact chain?_committed ready pathIndex world
    · rw [loadedChain_eq_ok _ _ _ loaded]
      exact sameTips
  · rw [ran] at commits
    exact absurd commits (failed _)

omit [Platform] [DecidableEq ι] in
/--
Given equal tips, a manifest is the next one of the current chain exactly
when it was computed from the current chain.
-/
theorem nextManifest_eq_iff
    {left right : Option ChainManifest}
    {localSha : Sha40}
    {segment : ChainSegment}
    (sameTips :
      left.map ChainManifest.tip = right.map ChainManifest.tip)
    (leftVersion :
      ∀ chain, left = some chain →
        chain.v = ChainManifest.schemaVersion)
    (rightVersion :
      ∀ chain, right = some chain →
        chain.v = ChainManifest.schemaVersion) :
    nextManifest left localSha segment false =
        nextManifest right localSha segment false ↔
      left = right := by
  constructor
  · intro equal
    cases left with
    | none =>
        cases right with
        | none => rfl
        | some chain => cases sameTips
    | some chain =>
        cases right with
        | none => cases sameTips
        | some other =>
            have same :=
              nextManifest_incremental_injective _ _
                (leftVersion chain rfl) (rightVersion other rfl) equal
            rw [same]
  · rintro rfl
    rfl

/--
Whenever its locked section is one step, the chain a push commits is the
next manifest of the chain present when it took the lock if and only if that
chain is the one its preparation read.
-/
theorem chain?_committed_iff
    {start : World}
    {pool next : Pool ι Operation Call Reply Unit Task (Watched ι)}
    {client : ι}
    {operation : Operation}
    {repo : LocalRepo}
    {ready : ReadyState}
    (reached :
      (clients bucketPrefix refName ι).Reaches WholeSections
        (.quiet (.ofWorld start)) pool)
    (waiting : pool.phase client = .waiting operation (.push repo ready))
    (stepped :
      (clients bucketPrefix refName ι).Step pool (.atomic client) next)
    (unforced : ready.force = false)
    (commits :
      (run answer (performPushUnderLock bucketPrefix repo ready)
        pool.state.world).1 = .ok (.ok ready.remoteRef)) :
    next.state.world.chain? bucketPrefix refName =
        some
          (nextManifest
            (pool.state.world.chain? bucketPrefix refName)
            ready.localSha (newSegment ready) false) ↔
      ready.prior = pool.state.world.chain? bucketPrefix refName := by
  have carried := pushPrepared_of_waiting reached waiting
  have sameRef := carried.remoteRef
  have wrote := chain?_of_commits commits
  have world :
      next.state.world =
        (run answer (performPushUnderLock bucketPrefix repo ready)
          pool.state.world).2 := by
    cases stepped with
    | @atomic _ other task phase free =>
        rw [waiting] at phase
        cases phase
        show
          (run (Watched.watch client)
              (toEffect (performPushUnderLock bucketPrefix repo ready))
              pool.state).2.world =
            _
        rw [run_toEffect]
        exact (Watched.run_watch client _ _).2
  rw [← sameRef, world, wrote.1, committedManifest, unforced,
    Option.some.injEq]
  apply nextManifest_eq_iff (wrote.2 unforced) carried.version
  intro chain found
  exact World.chain?_version _ _ found

end Clients

/-! ## Two schedules -/

section Schedules

attribute [local instance] Platform.simple

/-- Two pushes, a third one prepared, and a compaction before it commits. -/
def compactedUnderPush : List (Action Nat Operation) :=
  .start 0 (.push .linear false ['a']) :: Action.calls 0 4 ++
    .settle 0 :: .atomic 0 ::
    .start 0 (.push .linear false ['b']) :: Action.calls 0 3 ++
    .settle 0 :: .atomic 0 ::
    .start 1 (.push .linear false ['c']) :: Action.calls 1 3 ++
    .settle 1 ::
    .start 0 (.compact .linear true) ::
    Action.calls 0 2 ++
    [.settle 0, .atomic 0]

/-- Two pushes, and a third one prepared. -/
def pushedInTurn : List (Action Nat Operation) :=
  .start 0 (.push .linear false ['a']) :: Action.calls 0 4 ++
    .settle 0 :: .atomic 0 ::
    .start 0 (.push .linear false ['b']) :: Action.calls 0 3 ++
    .settle 0 :: .atomic 0 ::
    .start 1 (.push .linear false ['c']) :: Action.calls 1 3 ++
    [.settle 1]

/-- The chain a client's push commits, and the next one of the present. -/
def commitOf
    (pool : Pool Nat Operation Call Reply Unit Task (Watched Nat))
    (client : Nat) :
    Option (Option ChainManifest × Option ChainManifest) :=
  match (pool.phase client).waiting?,
      (clients none .main Nat).step? pool (.atomic client) with
  | some (_, .push repo ready), some next =>
      if ready.force = false ∧
          (run answer (performPushUnderLock none repo ready)
            pool.state.world).1 = .ok (.ok ready.remoteRef) then
        some
          (next.state.world.chain? none .main,
            some
              (nextManifest (pool.state.world.chain? none .main)
                ready.localSha (newSegment ready) false))
      else none
  | _, _ => none

theorem commitOf_eq_some
    {pool : Pool Nat Operation Call Reply Unit Task (Watched Nat)}
    {client : Nat}
    {chain expected : Option ChainManifest}
    (found : commitOf pool client = some (chain, expected)) :
    ∃ next operation repo ready,
      pool.phase client = .waiting operation (.push repo ready) ∧
        (clients none .main Nat).step? pool (.atomic client) =
          some next ∧
        ready.force = false ∧
        (run answer (performPushUnderLock none repo ready)
          pool.state.world).1 = .ok (.ok ready.remoteRef) ∧
        chain = next.state.world.chain? none .main ∧
        expected =
          some
            (nextManifest (pool.state.world.chain? none .main)
              ready.localSha (newSegment ready) false) := by
  unfold commitOf at found
  split at found
  next operation repo ready next waiting stepped =>
      split at found
      next commits =>
          cases found
          exact
            ⟨next, operation, repo, ready,
              Phase.waiting?_eq_some.1 waiting, stepped, commits.1,
              commits.2, rfl, rfl⟩
      next => cases found
  next => cases found

/-- A compaction between the preparation and the lock is overwritten. -/
theorem not_chain?_committed :
    ¬ ∀ pool next client operation repo ready,
      (clients none .main Nat).Reaches WholeSections
          (.quiet (.ofWorld (.empty 0))) pool →
        pool.phase client = .waiting operation (.push repo ready) →
        (clients none .main Nat).Step pool (.atomic client) next →
        ready.force = false →
        (run answer (performPushUnderLock none repo ready)
          pool.state.world).1 = .ok (.ok ready.remoteRef) →
          next.state.world.chain? none .main =
            some
              (nextManifest (pool.state.world.chain? none .main)
                ready.localSha (newSegment ready) false) := by
  intro always
  have executed :
      ((clients none .main Nat).schedule? WholeSections
          compactedUnderPush (.quiet (.ofWorld (.empty 0)))).map
        (fun pool =>
          (commitOf pool 1).map fun found =>
            decide (found.1 = found.2)) =
        some (some false) := by
    decide +kernel
  rcases Option.map_eq_some_iff.1 executed with ⟨pool, reached, known⟩
  rcases Option.map_eq_some_iff.1 known with
    ⟨⟨chain, expected⟩, found, different⟩
  rcases commitOf_eq_some found with
    ⟨next, operation, repo, ready, waiting, stepped, unforced, commits,
      rfl, rfl⟩
  apply of_decide_eq_false different
  exact
    always pool next 1 operation repo ready
      (System.Reaches.refl.schedule reached) waiting
      (System.step_of_step? stepped) unforced commits

theorem chain?_committed_iff_inTurn :
    ∃ pool next operation repo ready,
      (clients none .main Nat).schedule? WholeSections pushedInTurn
          (.quiet (.ofWorld (.empty 0))) = some pool ∧
        pool.phase 1 = .waiting operation (.push repo ready) ∧
        (clients none .main Nat).step? pool (.atomic 1) = some next ∧
        (next.state.world.chain? none .main =
            some
              (nextManifest (pool.state.world.chain? none .main)
                ready.localSha (newSegment ready) false) ↔
          ready.prior = pool.state.world.chain? none .main) := by
  have executed :
      ((clients none .main Nat).schedule? WholeSections pushedInTurn
          (.quiet (.ofWorld (.empty 0)))).map
        (fun pool =>
          (commitOf pool 1).map fun found =>
            decide (found.1 = found.2)) =
        some (some true) := by
    decide +kernel
  rcases Option.map_eq_some_iff.1 executed with ⟨pool, reached, known⟩
  rcases Option.map_eq_some_iff.1 known with
    ⟨⟨chain, expected⟩, found, -⟩
  rcases commitOf_eq_some found with
    ⟨next, operation, repo, ready, waiting, stepped, unforced, commits,
      -, -⟩
  exact
    ⟨pool, next, operation, repo, ready, reached, waiting, stepped,
      chain?_committed_iff (System.Reaches.refl.schedule reached) waiting
        (System.step_of_step? stepped) unforced commits⟩

end Schedules

end GitRemoteObjectStore.ManifestUpdate
