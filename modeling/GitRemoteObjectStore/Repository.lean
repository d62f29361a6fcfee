import GitRemoteObjectStore.Interference
import GitRemoteObjectStore.PackchainRuns

/-!
# Clients of a repository

Any number of clients work on any references of one packchain repository.
The calls of their preparations interleave, and each locked section is one
step.  What a preparation carries into its section is what it has read and
built; the rules below derive it for every contract on the bucket.
-/

namespace GitRemoteObjectStore.Packchain

open CallProgram Prog

variable [Platform]

/-! ## Commands -/

/-- One of the allowed operations, on one reference. -/
structure Command (Allowed : Operation → Prop) where
  refName : RefName
  operation : Operation
  allowed : Allowed operation

/-- Clients giving allowed commands to one repository. -/
def repository
    (Allowed : Operation → Prop)
    (bucketPrefix : Option Text)
    (ι : Type) :
    System ι (Command Allowed) Call Reply Unit (RefName × Task) World where
  handler := fun _ => answer
  begin := fun _ world => world
  elapse := fun duration world => world.wait duration
  prepare := fun command =>
    prepare bucketPrefix command.refName command.operation >>=
      fun found => .done (found.map fun task => (command.refName, task))
  work := fun found => work bucketPrefix found.1 found.2

/-! ## What a preparation has read and built -/

/-- The command a prepared push came from. -/
def ReadyState.spec (ready : ReadyState) : PushSpec :=
  ⟨ready.force, ready.localSpec, ready.remoteRef⟩

/-- What a prepared push has found and built in its repository. -/
structure PreparedBy
    (repo : LocalRepo)
    (ready : ReadyState)
    (found : LocalGit)
    (built : BuiltPack × Option (List UInt8)) : Prop where
  git :
    GitReady repo ready.localSpec (ready.prior.map ChainManifest.tip)
      ready.force found
  ahead : ¬ UpToDate ready.spec ready.prior found
  builds : buildFor repo ready.spec found = .ok built
  localSha : ready.localSha = found.localSha
  packContentSha : ready.packContentSha = built.1.contentSha
  packBytes : ready.packBytes = built.1.packBytes

section Preparing

variable
    {contract : Contract Call World}
    {bucketPrefix : Option Text}
    {world : World}

/-- A chain that is read is the one stored when it is read. -/
theorem keeping_loadChain
    (refName : RefName)
    {post :
      Except PackchainError (Option ChainManifest) → World → Prop}
    (idle : ∀ state, contract.guarantee state state)
    (holds :
      ∀ found later,
        contract.invariant found →
        contract.rely found later → contract.invariant later →
        post
          (loadedChain (found.body? (chainKey bucketPrefix refName)))
          later) :
    Safe contract answer post (loadChain bucketPrefix refName) world := by
  intro found changed invariant met
  have reached := fun later => holds found later invariant
  revert reached
  simp only [answer, World.body?]
  cases object : found.get? (chainKey bucketPrefix refName) with
  | none =>
      exact fun reached =>
        ⟨⟨invariant, idle found⟩,
          fun later more holds => reached later more holds⟩
  | some stored =>
      simp only [Option.map_some, loadedChain, Prog.ofExcept,
        Prog.attempt, Prog.bind]
      cases ChainManifest.fromJsonBytes stored.body with
      | ok manifest =>
          exact fun reached =>
            ⟨⟨invariant, idle found⟩,
              fun later more holds => reached later more holds⟩
      | error error =>
          exact fun reached =>
            ⟨⟨invariant, idle found⟩,
              fun later more holds => reached later more holds⟩

/--
A prepared push carries what is known of every stored chain for its prior
one, and what its upload has left in the bucket.
-/
theorem keeping_preparePush
    (repo : LocalRepo)
    (spec : PushSpec)
    {Known : ChainManifest → World → Prop}
    {Landed :
      Sha → BuiltPack × Option (List UInt8) → World → Prop}
    (idle : ∀ state, contract.guarantee state state)
    (fair :
      ∀ state later,
        contract.guarantee state later → contract.rely state later)
    (known :
      ∀ state chain,
        contract.invariant state →
        state.chain? bucketPrefix spec.remoteRef = some chain →
          Known chain state)
    (knownStable :
      ∀ chain state later,
        contract.rely state later → Known chain state →
          Known chain later)
    (landedStable :
      ∀ sha built state later,
        contract.rely state later → Landed sha built state →
          Landed sha built later)
    (upload :
      ∀ priorTip found built state,
        GitReady repo spec.localSpec priorTip spec.force found →
        buildFor repo spec found = .ok built →
        Safe contract answer
          (whenOk fun _ later => Landed found.localSha built later)
          (uploadPackIdxBaseline bucketPrefix spec.remoteRef
            found.localSha built.1 built.2)
          state) :
    Safe contract answer
      (whenOk fun prepared later =>
        ∀ ready, prepared = .ready ready →
          ready.remoteRef = spec.remoteRef ∧
            (∀ chain, ready.prior = some chain → Known chain later) ∧
              ∃ found built,
                PreparedBy repo ready found built ∧
                  Landed ready.localSha built later)
      (preparePush bucketPrefix repo spec) world := by
  have reading :
      Safe contract answer
        (whenOk fun prior later =>
          ∀ chain, prior = some chain → Known chain later)
        (loadChain bucketPrefix spec.remoteRef) world := by
    apply keeping_loadChain spec.remoteRef idle
    intro found later invariant changed _
    cases loaded :
        loadedChain
          (found.body? (chainKey bucketPrefix spec.remoteRef)) with
    | error error => trivial
    | ok prior =>
        rintro chain rfl
        exact
          knownStable chain _ _ changed
            (known found chain invariant (loadedChain_eq_ok _ _ _ loaded))
  unfold preparePush
  apply reading.convert.andThen
  intro prior read _ priorKnown
  apply Safe.check
  intro probe probed
  cases probe with
  | error refusal =>
      intro _ _ _ _ same
      cases same
  | ok found =>
      have git := localGitWorkPackchain_ok.1 probed
      simp only
      split
      · intro _ _ _ _ same
        cases same
      next ahead =>
      apply Safe.checkAs
      intro built builds
      have framed :
          Safe contract answer
            (whenOk fun _ later =>
              Landed found.localSha built later ∧
                ∀ chain, prior = some chain → Known chain later)
            (uploadPackIdxBaseline bucketPrefix spec.remoteRef
              found.localSha built.1 built.2)
            read := by
        apply (upload _ found built read git builds).frame
        · exact fun _ _ changed held chain same =>
            knownStable chain _ _ changed (held chain same)
        · exact fun _ _ changed held chain same =>
            knownStable chain _ _ (fair _ _ changed) (held chain same)
        · exact priorKnown
      apply framed.andThen
      rintro _ landed - ⟨arrived, held⟩ later changed _ ready same
      cases same
      refine
        ⟨rfl,
          fun chain same => knownStable _ _ _ changed (held chain same),
          found, built,
          { git := git
            ahead := ?_
            builds := builds
            localSha := rfl
            packContentSha := rfl
            packBytes := rfl },
          landedStable _ _ _ _ changed arrived⟩
      simpa [UpToDate, ReadyState.spec] using ahead

/-! ## What a preparation carries into its section -/

/-- Calls that change no object are always in order. -/
def PermitsReads (contract : Contract Call World) : Prop :=
  ∀ request state,
    Call.Reads request → contract.invariant state →
      contract.invariant (answer request state).2 ∧
        contract.guarantee state (answer request state).2

theorem bucket_answer_of_reads
    {request : Call}
    (reads : request.Reads)
    (world : World) :
    (answer request world).2.bucket = world.bucket := by
  cases request with
  | put key body => exact reads.elim
  | putIfAbsent key body => exact reads.elim
  | delete key => exact reads.elim
  | get key =>
      simp only [answer]
      split <;> rfl
  | head key =>
      simp only [answer]
      split <;> rfl
  | list start => rfl
  | nowUtc => rfl
  | newUuid => rfl

theorem keeping_reading
    {ε α : Type}
    (readable : PermitsReads contract)
    {program : Program ε α}
    (issues : Issues Call.Credible Call.Reads program) :
    Safe contract answer (fun _ _ => True) program world := by
  apply issues.safe credible_answer _ (fun _ _ _ _ => trivial) trivial
  intro request state reads invariant _ _
  exact ⟨readable request state reads invariant, trivial⟩

/-- The task of a preparation, from what its push carries. -/
theorem keeping_prepare
    {Ready : Operation → Task → World → Prop}
    (readable : PermitsReads contract)
    (readyStable :
      ∀ operation task state later,
        contract.rely state later → Ready operation task state →
          Ready operation task later)
    (refName : RefName)
    (operation : Operation)
    (push :
      ∀ repo force localSpec,
        operation = .push repo force localSpec →
        localSpec ≠ [] →
        Safe contract answer
          (whenOk fun prepared later =>
            ∀ ready, prepared = .ready ready →
              Ready operation (.push repo ready) later)
          (preparePush bucketPrefix repo ⟨force, localSpec, refName⟩)
          world)
    (delete :
      ∀ repo force state,
        operation = .push repo force [] → Ready operation .delete state)
    (compact :
      ∀ scratch force state,
        operation = .compact scratch force →
          Ready operation (.compact scratch) state)
    (deleteBranch :
      ∀ confirmed state,
        operation = .deleteBranch confirmed →
          Ready operation .deleteBranch state) :
    Safe contract answer
      (whenOk fun prepared later =>
        ∀ task, prepared = some task → Ready operation task later)
      (prepare bucketPrefix refName operation) world := by
  have reading (request : Call) (reads : request.Reads) :
      Call.Reads request :=
    reads
  cases operation with
  | push repo force localSpec =>
      simp only [prepare]
      split
      next unnamed =>
          subst unnamed
          rintro later _ _ task same
          cases same
          exact delete repo force later rfl
      next named =>
          apply (push repo force localSpec rfl named).attempt.andThen
          intro outcome prepared _ carried later changed _ task same
          cases outcome with
          | error error => cases same
          | ok outcome =>
              cases outcome with
              | done outcome => cases same
              | ready ready =>
                  cases same
                  exact
                    readyStable _ _ _ _ changed (carried ready rfl)
  | compact scratch force =>
      apply
        (keeping_reading readable
          (issues_prepareCompact reading _ _ force).attempt).keeping
      intro outcome _ _ _ later _ _ task same
      rcases outcome with _ | _ | _ <;> cases same
      exact compact scratch force later rfl
  | deleteBranch confirmed =>
      apply
        (keeping_reading readable
          (issues_prepareDeleteBranch reading _ _
            confirmed).attempt).keeping
      intro outcome _ _ _ later _ _ task same
      rcases outcome with _ | _ | _ <;> cases same
      exact deleteBranch confirmed later rfl

end Preparing

end GitRemoteObjectStore.Packchain
