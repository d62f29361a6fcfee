import GitRemoteObjectStore.Footprint
import GitRemoteObjectStore.Library.Contract
import GitRemoteObjectStore.Library.Machine

/-!
# Exclusivity of the storage engine

Any number of clients connect, resolve an engine and push under it,
interleaved at single store calls.  `FORMAT` never changes once it is there,
and a push that gets as far as writing it goes on whatever it finds.  Every
push reports success under the engine `FORMAT` names as long as no push
finds another engine there than its own.
-/

namespace GitRemoteObjectStore.EngineExclusivity

open CallProgram Prog

section Sessions

variable [Platform] (bucketPrefix : Option Text)

/-- `flush_batch`: a push goes to the engine of the session. -/
def flushPush
    (engine : StorageEngine)
    (repo : LocalRepo)
    (zip : Bool)
    (ttl now : Int)
    (spec : PushSpec) : Program PushError PushOutcome :=
  match engine with
  | .bundle => Bundle.pushOne bucketPrefix repo zip ttl now spec
  | .packchain => Packchain.pushOne bucketPrefix repo ttl now spec

/-- Where a client is. -/
inductive Phase where
  | offline
  | connecting (program : Program BackendError StorageEngine)
  | connected (engine : StorageEngine)
  | pushing
      (engine : StorageEngine)
      (spec : PushSpec)
      (program : Program PushError PushOutcome)

/-- A push that has reported `ok`. -/
structure Report where
  engine : StorageEngine
  remoteRef : RefName
deriving DecidableEq

/-- The bucket, the clients, and what has been reported so far. -/
structure State (ι : Type) where
  world : World
  phase : ι → Phase
  reported : List Report

/-- A step of one client, or the passing of time. -/
inductive Action (ι : Type) where
  | connect
      (client : ι) (kind : BackendKind) (urlEngine : Option StorageEngine)
  /-- Begin a push, with a clock read a while ago. -/
  | push
      (client : ι) (repo : LocalRepo) (zip : Bool) (ttl : Int)
      (spec : PushSpec) (delay : Nat)
  /-- The next store call of a client. -/
  | call (client : ι)
  /-- A client takes note of how its program ended. -/
  | settle (client : ι)
  /-- A client disconnects, or its process dies. -/
  | leave (client : ι)
  | elapse (duration : Nat)

/-- Nobody is connected. -/
def State.quiet {ι : Type} (world : World) : State ι :=
  ⟨world, fun _ => .offline, []⟩

variable {ι : Type} [DecidableEq ι]

/-- The state in which one client has moved on. -/
def State.move
    (state : State ι)
    (client : ι)
    (world : World)
    (phase : Phase)
    (reports : List Report) : State ι where
  world := world
  phase := Function.update state.phase client phase
  reported := reports ++ state.reported

/-- Where a client is once its push has ended, and what it reports. -/
def settlePush
    (engine : StorageEngine) :
    Program PushError PushOutcome → Option (Phase × List Report)
  | .done (.ok remoteRef) =>
      some (.connected engine, [⟨engine, remoteRef⟩])
  | .done (.error _ _) => some (.connected engine, [])
  | .fail _ => some (.offline, [])
  | .call _ _ => none

/-- The steps of the clients. -/
def step? : Machine (State ι) (Action ι) := fun state action =>
  match action with
  | .connect client kind urlEngine =>
      match state.phase client with
      | .offline =>
          some
            (state.move client state.world
              (.connecting (validateFormat kind bucketPrefix urlEngine))
              [])
      | _ => none
  | .push client repo zip ttl spec delay =>
      match state.phase client with
      | .connected engine =>
          some
            (state.move client state.world
              (.pushing engine spec
                (flushPush bucketPrefix engine repo zip ttl
                  (state.world.clock - delay) spec))
              [])
      | _ => none
  | .call client =>
      match state.phase client with
      | .connecting (.call request next) =>
          let reply := answer request state.world
          some (state.move client reply.2 (.connecting (next reply.1)) [])
      | .pushing engine spec (.call request next) =>
          let reply := answer request state.world
          some
            (state.move client reply.2
              (.pushing engine spec (next reply.1)) [])
      | _ => none
  | .settle client =>
      match state.phase client with
      | .connecting (.done engine) =>
          some (state.move client state.world (.connected engine) [])
      | .connecting (.fail _) =>
          some (state.move client state.world .offline [])
      | .pushing engine _ program =>
          (settlePush engine program).map fun ended =>
            state.move client state.world ended.1 ended.2
      | _ => none
  | .leave client => some (state.move client state.world .offline [])
  | .elapse duration =>
      some { state with world := state.world.wait duration }

end Sessions

/-! ## What `FORMAT` names -/

section Naming

variable (bucketPrefix : Option Text)

/-- `FORMAT` names an engine. -/
def Names (world : World) (engine : StorageEngine) : Prop :=
  world.body? (formatKey bucketPrefix) = some (.text engine.asStr)

/-- `FORMAT` names one engine at most. -/
theorem Names.unique
    {world : World}
    {left right : StorageEngine}
    (first : Names bucketPrefix world left)
    (second : Names bucketPrefix world right) :
    left = right := by
  have same := first.symm.trans second
  simp only [Option.some.injEq, Body.text.injEq] at same
  exact StorageEngine.asStr_injective same

def isText (name : Text) : Body → Bool
  | .text content => content == name
  | _ => false

theorem names_iff {world : World} {engine : StorageEngine} :
    ((world.body? (formatKey bucketPrefix)).any
        (isText engine.asStr)) = true ↔
      Names bucketPrefix world engine := by
  unfold Names
  cases world.body? (formatKey bucketPrefix) with
  | none => simp
  | some body => cases body <;> simp [isText]

instance (world : World) (engine : StorageEngine) :
    Decidable (Names bucketPrefix world engine) :=
  decidable_of_iff _ (names_iff bucketPrefix)

/--
A push meets no other engine: where it writes `FORMAT` there is none yet or
its own, and what a deletion of the bundle engine removes is removed under
`FORMAT = bundle`.
-/
def Undisturbed
    [Platform]
    (engine : StorageEngine)
    (spec : PushSpec)
    (request : Call)
    (world : World) : Prop :=
  match request with
  | .putIfAbsent key _ =>
      key = formatKey bucketPrefix →
        world.get? key = none ∨ Names bucketPrefix world engine
  | .delete key =>
      engine = .bundle → spec.localSpec = [] →
        key ≠ lockKey bucketPrefix spec.remoteRef →
          Names bucketPrefix world .bundle
  | _ => True

instance
    [Platform]
    (engine : StorageEngine)
    (spec : PushSpec)
    (request : Call)
    (world : World) :
    Decidable (Undisturbed bucketPrefix engine spec request world) :=
  match request with
  | .putIfAbsent _ _ =>
      inferInstanceAs (Decidable (_ → _ = none ∨ _))
  | .delete _ => inferInstanceAs (Decidable (_ → _ → _ → _))
  | .list _ => .isTrue trivial
  | .get _ => .isTrue trivial
  | .head _ => .isTrue trivial
  | .put _ _ => .isTrue trivial
  | .nowUtc => .isTrue trivial
  | .newUuid => .isTrue trivial

/-- The next call of a client meets no other engine. -/
def Phase.Unharmed [Platform] (world : World) : Phase → Prop
  | .pushing engine spec (.call request _) =>
      Undisturbed bucketPrefix engine spec request world
  | _ => True

instance [Platform] (world : World) (phase : Phase) :
    Decidable (phase.Unharmed bucketPrefix world) :=
  match phase with
  | .offline => .isTrue trivial
  | .connecting _ => .isTrue trivial
  | .connected _ => .isTrue trivial
  | .pushing engine spec (.call request _) =>
      inferInstanceAs
        (Decidable (Undisturbed bucketPrefix engine spec request world))
  | .pushing _ _ (.done _) => .isTrue trivial
  | .pushing _ _ (.fail _) => .isTrue trivial

/-- The client that acts meets no other engine. -/
def NoConflict
    [Platform]
    {ι : Type}
    (state : State ι) : Action ι → Prop
  | .call client =>
      (state.phase client).Unharmed bucketPrefix state.world
  | _ => True

instance
    [Platform]
    {ι : Type}
    (state : State ι)
    (action : Action ι) :
    Decidable (NoConflict bucketPrefix state action) :=
  match action with
  | .call client =>
      inferInstanceAs
        (Decidable ((state.phase client).Unharmed _ state.world))
  | .connect _ _ _ => .isTrue trivial
  | .push _ _ _ _ _ _ => .isTrue trivial
  | .settle _ => .isTrue trivial
  | .leave _ => .isTrue trivial
  | .elapse _ => .isTrue trivial

end Naming

/-! ## Calls that keep what `FORMAT` names -/

section Calls

variable [Platform] {bucketPrefix : Option Text}

/-- `FORMAT` is only written where there is none. -/
def FormatOnce
    (bucketPrefix : Option Text)
    (engine : StorageEngine)
    (request : Call) : Prop :=
  request.Writes (formatKey bucketPrefix) →
    request =
      .putIfAbsent (formatKey bucketPrefix) (.text engine.asStr)

/-- No chain is written, though one may be deleted. -/
def Chainless (bucketPrefix : Option Text) (request : Call) : Prop :=
  ∀ refName,
    request.Writes (chainKey bucketPrefix refName) →
      request = .delete (chainKey bucketPrefix refName)

/-- What is named stays named. -/
def Settled (bucketPrefix : Option Text) (before after : World) : Prop :=
  ∀ engine,
    Names bucketPrefix before engine → Names bucketPrefix after engine

/-- Where there is a chain, `FORMAT` names its engine. -/
def ChainsNamed (bucketPrefix : Option Text) (world : World) : Prop :=
  ∀ refName,
    (world.get? (chainKey bucketPrefix refName)).isSome →
      Names bucketPrefix world .packchain

omit [Platform] in
theorem Names.present
    {world : World}
    {engine : StorageEngine}
    (named : Names bucketPrefix world engine) :
    ∃ object,
      world.get? (formatKey bucketPrefix) = some object ∧
        object.body = .text engine.asStr :=
  Option.map_eq_some_iff.1 named

theorem settled_answer
    {engine : StorageEngine}
    {request : Call}
    (once : FormatOnce bucketPrefix engine request)
    (world : World) :
    Settled bucketPrefix world (answer request world).2 := by
  intro other named
  by_cases writes : request.Writes (formatKey bucketPrefix)
  · rcases named.present with ⟨object, found, -⟩
    rw [once writes]
    simp only [answer, found]
    exact named
  · unfold Names
    rw [body?_answer_of_not_writes writes]
    exact named

theorem chainsNamed_answer
    {engine : StorageEngine}
    {request : Call}
    (once : FormatOnce bucketPrefix engine request)
    (chainless : Chainless bucketPrefix request)
    {world : World}
    (named : ChainsNamed bucketPrefix world) :
    ChainsNamed bucketPrefix (answer request world).2 := by
  intro refName present
  apply settled_answer once
  by_cases writes : request.Writes (chainKey bucketPrefix refName)
  · have gone :=
      body?_answer_delete (chainKey bucketPrefix refName) world
    rw [← chainless refName writes] at gone
    unfold World.body? at gone
    rw [Option.map_eq_none_iff.1 gone] at present
    cases present
  · rw [get?_answer_of_not_writes writes] at present
    exact named refName present

/-- The terms a push runs under. -/
def terms
    (bucketPrefix : Option Text)
    (engine : StorageEngine)
    (spec : PushSpec) : Contract Call World where
  rely := Settled bucketPrefix
  invariant := ChainsNamed bucketPrefix
  met := Undisturbed bucketPrefix engine spec
  guarantee := Settled bucketPrefix
  rely_refl := fun _ _ named => named
  rely_trans := fun _ _ _ first second other named =>
    second other (first other named)

/-- What a push that reports `ok` leaves. -/
def Reported
    (bucketPrefix : Option Text)
    (engine : StorageEngine)
    (outcome : PushOutcome)
    (world : World) : Prop :=
  ∀ remoteRef, outcome = .ok remoteRef → Names bucketPrefix world engine

end Calls

/-! ## Programs under these terms -/

section Safety

variable
    [Platform]
    {bucketPrefix : Option Text}
    {refName : RefName}
    {engine writer : StorageEngine}
    {spec : PushSpec}
    {ε α : Type}

/-- Calls that write no chain, and `FORMAT` only where there is none. -/
def Gentle
    (bucketPrefix : Option Text)
    (engine : StorageEngine)
    (request : Call) : Prop :=
  FormatOnce bucketPrefix engine request ∧
    Chainless bucketPrefix request

theorem Gentle.answer
    {request : Call}
    (gentle : Gentle bucketPrefix writer request)
    {world : World}
    (named : ChainsNamed bucketPrefix world) :
    ChainsNamed bucketPrefix (answer request world).2 ∧
      Settled bucketPrefix world (answer request world).2 :=
  ⟨chainsNamed_answer gentle.1 gentle.2 named,
    settled_answer gentle.1 world⟩

/-- Programs whose calls keep what is named keep what follows from it. -/
theorem safe_calls
    {allowed : Call → Prop}
    {keeps : World → Prop}
    {good : α → Prop}
    (stable :
      ∀ before after,
        Settled bucketPrefix before after → keeps before → keeps after)
    (each :
      ∀ request world,
        allowed request → keeps world → ChainsNamed bucketPrefix world →
          ChainsNamed bucketPrefix (answer request world).2 ∧
            Settled bucketPrefix world (answer request world).2)
    {program : Program ε α}
    (issues : Issues Call.Credible allowed program)
    (returns : Returns Call.Credible good program)
    {world : World}
    (holds : keeps world) :
    Safe (terms bucketPrefix engine spec) answer
      (whenOk fun value later => good value ∧ keeps later) program
      world := by
  apply issues.safeReturning credible_answer _ stable returns holds
  intro request state permitted named _ kept
  have answered := each request state permitted kept named
  exact ⟨answered, stable _ _ answered.2 kept⟩

/-- What a gentle program returns. -/
theorem safe_gentle
    {good : α → Prop}
    {program : Program ε α}
    (issues :
      Issues Call.Credible (Gentle bucketPrefix writer) program)
    (returns : Returns Call.Credible good program)
    {world : World} :
    Safe (terms bucketPrefix engine spec) answer
      (whenOk fun value _ => good value) program world := by
  have safe :
      Safe (terms bucketPrefix engine spec) answer
        (whenOk fun value _ => good value ∧ True) program world := by
    apply safe_calls _ _ issues returns trivial
    · intro _ _ _ _
      trivial
    · intro request state gentle _ named
      exact gentle.answer named
  apply safe.weaken
  intro outcome later _ holds
  cases outcome with
  | ok value => exact holds.1
  | error error => trivial

/-- A gentle program keeps what `FORMAT` names. -/
theorem safe_gentle_named
    {program : Program ε α}
    (issues :
      Issues Call.Credible (Gentle bucketPrefix writer) program)
    {world : World}
    {known : StorageEngine}
    (named : Names bucketPrefix world known) :
    Safe (terms bucketPrefix engine spec) answer
      (whenOk fun _ later => True ∧ Names bucketPrefix later known)
      program world := by
  apply safe_calls _ _ issues (returns_any program) named
  · intro before after settled
    exact settled known
  · intro request state gentle _ chains
    exact gentle.answer chains

/-- Once `FORMAT` names it, the packchain engine may write chains. -/
theorem safe_packchain_named
    {program : Program ε α}
    (issues :
      Issues Call.Credible (FormatOnce bucketPrefix .packchain) program)
    {world : World}
    (named : Names bucketPrefix world .packchain) :
    Safe (terms bucketPrefix engine spec) answer
      (whenOk fun _ later => True ∧ Names bucketPrefix later .packchain)
      program world := by
  apply safe_calls _ _ issues (returns_any program) named
  · intro before after settled
    exact settled .packchain
  · intro request state once kept _
    have settled := settled_answer once state
    exact ⟨fun _ _ => settled .packchain kept, settled⟩

/-- A push that has written `FORMAT` finds its own engine there. -/
theorem safe_writeFormat {world : World} :
    Safe (terms bucketPrefix engine spec) answer
      (whenOk fun _ later => Names bucketPrefix later engine)
      ((Store.putIfAbsent (formatKey bucketPrefix)
        (.text engine.asStr)).mapError PushError.store) world := by
  intro later _ chains met
  have once :
      FormatOnce bucketPrefix engine
        (.putIfAbsent (formatKey bucketPrefix) (.text engine.asStr)) :=
    fun _ => rfl
  have chainless :
      Chainless bucketPrefix
        (.putIfAbsent (formatKey bucketPrefix)
          (.text engine.asStr)) := by
    intro refName writes
    have same :
        chainKey bucketPrefix refName = formatKey bucketPrefix :=
      writes
    rw [chainKey_eq, formatKey_eq, Slot.key_inj] at same
    cases same
  have gentle := And.intro once chainless
  refine ⟨Gentle.answer gentle chains, ?_⟩
  have named :
      Names bucketPrefix
        (answer
          (.putIfAbsent (formatKey bucketPrefix) (.text engine.asStr))
          later).2 engine := by
    rcases met rfl with absent | known
    · unfold Names
      simp only [answer, absent, World.body?_put, if_true]
    · exact settled_answer once later engine known
  cases found : later.get? (formatKey bucketPrefix) with
  | none =>
      simp only [answer, found] at named ⊢
      exact fun last changed _ => changed engine named
  | some object =>
      simp only [answer, found] at named ⊢
      exact fun last changed _ => changed engine named

/-- Locking is gentle; what the work reports is what is reported. -/
theorem safe_underRefLock
    (locks : Locks bucketPrefix refName (Gentle bucketPrefix writer))
    {work : Program PushError PushOutcome}
    (working :
      ∀ world,
        ChainsNamed bucketPrefix world →
          Safe (terms bucketPrefix engine spec) answer
            (whenOk (Reported bucketPrefix engine)) work world)
    (ttl now : Int)
    (who : String)
    (world : World) :
    Safe (terms bucketPrefix engine spec) answer
      (whenOk (Reported bucketPrefix engine))
      (underRefLock bucketPrefix refName ttl now who work) world := by
  have holding :
      Safe (terms bucketPrefix engine spec) answer
        (whenOk fun held later =>
          ∀ remoteRef released,
            held = some (.ok (.ok remoteRef), released) →
              Names bucketPrefix later engine)
        (holdingLock (lockKey bucketPrefix refName) ttl now work)
        world := by
    unfold holdingLock
    apply
      (safe_gentle (locks.issues_acquireLock ttl now)
        (returns_any _)).andThen
    intro acquired taken chains _
    split
    · apply (working taken chains).attempt.andThen
      intro result worked _ reported
      have releasing :
          Issues Call.Credible (Gentle bucketPrefix writer)
            (releaseLock (lockKey bucketPrefix refName)) := by
        apply issues_deleteIdempotent
        rw [lockKey_eq]
        exact locks.unlock
      have keeping :
          Safe (terms bucketPrefix engine spec) answer
            (whenOk fun _ later =>
              True ∧
                ∀ remoteRef, result = .ok (.ok remoteRef) →
                  Names bucketPrefix later engine)
            ((releaseLock (lockKey bucketPrefix refName)).attempt :
              Program ObjectStoreError
                (Except ObjectStoreError Unit)) worked := by
        apply safe_calls _ _ releasing.attempt (returns_any _)
        · rintro remoteRef rfl
          exact reported remoteRef rfl
        · intro before after settled kept remoteRef same
          exact settled _ (kept remoteRef same)
        · intro request state gentle _ named
          exact gentle.answer named
      apply keeping.andThen
      intro released unlocked _ kept later changed _ remoteRef freed same
      cases same
      exact changed _ (kept.2 remoteRef rfl)
    · intro later _ _ remoteRef freed same
      cases same
  unfold underRefLock
  apply holding.convert.andThen
  intro held ended _ reported
  rcases held with _ | ⟨result, released⟩
  · intro later _ _ remoteRef same
    cases same
  · apply safe_ofExcept
    intro later changed _
    rcases result with error | outcome
    · trivial
    · rcases outcome with remoteRef | ⟨remoteRef, message⟩
      · cases released with
        | ok gone =>
            intro other same
            exact changed _ (reported remoteRef _ rfl)
        | error error =>
            intro other same
            cases same
      · intro other same
        cases same

end Safety

/-! ## The bundle engine -/

section BundlePush

variable
    [Platform]
    {bucketPrefix : Option Text}
    {refName : RefName}
    {writer : StorageEngine}
    {spec : PushSpec}

/-- A call that may change one slot, neither `FORMAT` nor a chain. -/
theorem gentle_of_slot
    {request : Call}
    (slot : Slot)
    (only :
      ∀ key, request.Writes key → key = slot.key bucketPrefix)
    (notFormat : slot ≠ .format)
    (notChain : ∀ refName, slot ≠ .ref refName .chain) :
    Gentle bucketPrefix writer request := by
  constructor
  · intro writes
    have same := only _ writes
    rw [formatKey_eq, Slot.key_inj] at same
    exact absurd same.symm notFormat
  · intro refName writes
    have same := only _ writes
    rw [chainKey_eq, Slot.key_inj] at same
    exact absurd same.symm (notChain refName)

theorem gentle_reads
    (request : Call)
    (reads : request.Reads) :
    Gentle bucketPrefix writer request := by
  have silent : ∀ key, ¬ request.Writes key := by
    intro key
    cases request with
    | put other body => exact reads.elim
    | putIfAbsent other body => exact reads.elim
    | delete other => exact reads.elim
    | _ => exact fun writes => writes
  exact
    ⟨fun writes => absurd writes (silent _),
      fun refName writes => absurd writes (silent _)⟩

theorem locks_gentle :
    Locks bucketPrefix refName (Gentle bucketPrefix writer) where
  reads := gentle_reads
  lock :=
    gentle_of_slot (.ref refName .lock) (fun _ writes => writes)
      (by simp) (by simp)
  unlock :=
    gentle_of_slot (.ref refName .lock) (fun _ writes => writes)
      (by simp) (by simp)

/-- What is listed under a reference is not `FORMAT`. -/
theorem formatOnce_sweeps :
    Sweeps bucketPrefix refName (FormatOnce bucketPrefix writer) := by
  intro key listed writes
  have same : formatKey bucketPrefix = key := writes
  rw [← same, formatKey_eq, refListingPrefix_prefix_iff] at listed
  exact listed.elim

theorem gentle_sweeps :
    Sweeps bucketPrefix refName (Gentle bucketPrefix writer) := by
  intro key listed
  refine ⟨formatOnce_sweeps key listed, ?_⟩
  intro other writes
  have same : chainKey bucketPrefix other = key := writes
  rw [same]

theorem permits_bundle :
    Permits bucketPrefix refName .bundle
      (Gentle bucketPrefix .bundle) where
  toLocks := locks_gentle
  put := by
    intro slot body written
    apply gentle_of_slot slot
    · exact fun _ writes => writes
    · rintro rfl
      exact written
    · rintro other rfl
      cases written.1
  drop := by
    intro other
    cases other
  head :=
    gentle_of_slot .head (fun _ writes => writes) (by simp) (by simp)
  format := by
    rw [← formatKey_eq]
    refine ⟨fun _ => rfl, ?_⟩
    intro other writes
    have same : chainKey bucketPrefix other = formatKey bucketPrefix :=
      writes
    rw [chainKey_eq, formatKey_eq, Slot.key_inj] at same
    cases same

/-- A bundle push that gets to its end has written `FORMAT`. -/
theorem safe_bundleCommit
    (state : Bundle.PushReadyState)
    {currentKey : Option Text}
    (listed :
      ∀ key, currentKey = some key →
        refListingPrefix bucketPrefix state.remoteRef <+: key)
    (world : World) :
    Safe (terms bucketPrefix .bundle spec) answer
      (whenOk (Reported bucketPrefix .bundle))
      (Bundle.commitPush bucketPrefix state currentKey) world := by
  have permits :
      Permits bucketPrefix state.remoteRef .bundle
        (Gentle bucketPrefix .bundle) :=
    permits_bundle
  have uploading :
      Issues Call.Credible (Gentle bucketPrefix .bundle)
        ((Store.putPath
          (bundleKey bucketPrefix state.remoteRef state.localSha)
          state.bundle).mapError PushError.store) := by
    rw [bundleKey_eq]
    apply Issues.mapError
    apply issues_request
    · apply permits.put
      rfl
    · simp
  have heading :
      Issues Call.Credible (Gentle bucketPrefix .bundle)
        ((Store.putIfAbsent (headKey bucketPrefix)
          (.text state.remoteRef.text)).mapError PushError.store) := by
    rw [headKey_eq]
    apply Issues.mapError
    apply issues_request permits.head
    simp
  unfold Bundle.commitPush
  apply (safe_gentle uploading (returns_any _)).andThen
  intro _ _ _ _
  apply (safe_gentle heading (returns_any _)).andThen
  intro _ _ _ _
  apply safe_writeFormat.andThen
  intro _ marked _ named
  apply
    (safe_gentle_named
      (Bundle.issues_supersedePrior permits gentle_sweeps rfl _ listed)
      named).andThen
  intro _ superseded _ kept
  apply
    (safe_gentle_named (Bundle.issues_uploadArchive permits rfl)
      kept.2).andThen
  intro _ archived _ still later changed _ remoteRef _
  exact changed _ still.2

/-- The locked section of a bundle push. -/
theorem safe_bundlePerform
    (state : Bundle.PushReadyState)
    (world : World) :
    Safe (terms bucketPrefix .bundle spec) answer
      (whenOk (Reported bucketPrefix .bundle))
      (Bundle.performPushUnderLock bucketPrefix state) world := by
  have permits :
      Permits bucketPrefix state.remoteRef .bundle
        (Gentle bucketPrefix .bundle) :=
    permits_bundle
  unfold Bundle.performPushUnderLock
  apply
    (safe_gentle (Bundle.issues_forceRefused permits state)
      (returns_any _)).andThen
  intro refused checked _ _
  split
  · intro later _ _ remoteRef same
    cases same
  apply
    (safe_gentle (Bundle.issues_bundlesForRef permits _).mapError
      (Bundle.returns_bundlesForRef _).mapError).andThen
  intro current found _ listed
  split
  · intro later _ _ remoteRef same
    cases same
  simp only
  split
  · intro later _ _ remoteRef same
    cases same
  apply safe_bundleCommit
  intro key head
  rcases Option.map_eq_some_iff.1 head with ⟨entry, first, rfl⟩
  exact listed entry (List.mem_of_mem_head? first)

/-- What a deletion of the bundle engine removes is a bundle's. -/
theorem safe_remove
    (deletion : spec.localSpec = [])
    {key : Text}
    (listed : refListingPrefix bucketPrefix spec.remoteRef <+: key)
    (unlocked : key ≠ lockKey bucketPrefix spec.remoteRef)
    (world : World) :
    Safe (terms bucketPrefix .bundle spec) answer
      (whenOk fun _ later => Names bucketPrefix later .bundle)
      (deleteIdempotent key) world := by
  intro later _ chains met
  have gentle : Gentle bucketPrefix .bundle (.delete key) :=
    gentle_sweeps key listed
  have answered := gentle.answer chains
  have named := answered.2 _ (met rfl deletion unlocked)
  refine ⟨answered, ?_⟩
  cases found : later.get? key with
  | none =>
      simp only [answer, found] at named ⊢
      exact fun last changed _ => changed _ named
  | some object =>
      simp only [answer, found] at named ⊢
      exact fun last changed _ => changed _ named

/-- A deletion of the bundle engine removes its bundle under its engine. -/
theorem safe_bundleDelete
    (deletion : spec.localSpec = [])
    (world : World) :
    Safe (terms bucketPrefix .bundle spec) answer
      (whenOk (Reported bucketPrefix .bundle))
      (Bundle.deleteRemoteRefUnderLock bucketPrefix spec.remoteRef)
      world := by
  have permits :
      Permits bucketPrefix spec.remoteRef .bundle
        (Gentle bucketPrefix .bundle) :=
    permits_bundle
  have listing :
      Issues Call.Credible (Gentle bucketPrefix .bundle)
        ((Store.list
          (refListingPrefix bucketPrefix spec.remoteRef)).mapError
          PushError.store) := by
    apply Issues.mapError
    apply issues_request (permits.reads (.list _) trivial)
    simp
  have returning :
      Returns Call.Credible
        (fun entries =>
          ∀ entry ∈ entries,
            refListingPrefix bucketPrefix spec.remoteRef <+: entry.key)
        ((Store.list
          (refListingPrefix bucketPrefix spec.remoteRef)).mapError
          PushError.store) := by
    apply Returns.mapError
    intro reply credible
    cases reply with
    | error error => trivial
    | ok entries => exact credible
  unfold Bundle.deleteRemoteRefUnderLock
  apply (safe_gentle listing returning).andThen
  intro entries listed _ begins
  split
  · intro later _ _ remoteRef same
    cases same
  simp only
  split
  · intro later _ _ remoteRef same
    cases same
  next single =>
      have within :
          ∀ entry ∈ entries.filter
              (fun entry =>
                entry.key ≠ lockKey bucketPrefix spec.remoteRef),
            refListingPrefix bucketPrefix spec.remoteRef <+: entry.key ∧
              entry.key ≠ lockKey bucketPrefix spec.remoteRef := by
        intro entry member
        rcases List.mem_filter.1 member with ⟨inEntries, notLock⟩
        exact ⟨begins entry inEntries, of_decide_eq_true notLock⟩
      revert single within
      generalize
        entries.filter
          (fun entry =>
            entry.key ≠ lockKey bucketPrefix spec.remoteRef) =
          deletable
      intro single within
      cases deletable with
      | nil => cases single
      | cons first rest =>
          have removing :=
            within first (List.mem_cons_self ..)
          have sweeping :
              Issues Call.Credible (Gentle bucketPrefix .bundle)
                (forEach (fun entry => deleteIdempotent entry.key)
                  rest) := by
            apply issues_forEach
            intro entry member
            apply issues_deleteIdempotent
            exact
              gentle_sweeps _
                (within entry (List.mem_cons_of_mem _ member)).1
          rw [forEach_cons]
          have removed :=
            (safe_remove deletion removing.1 removing.2 listed).andThen
              fun _ _ _ named => safe_gentle_named sweeping named
          apply removed.convert.andThen
          intro _ swept _ named
          have verifying :
              Issues Call.Credible (Gentle bucketPrefix .bundle)
                (verifyNoOrphanProtectedAfterDelete bucketPrefix
                  spec.remoteRef : Program PushError Unit) :=
            issues_verifyNoOrphanProtectedAfterDelete permits.reads _ _
          apply (safe_gentle_named verifying named.2).andThen
          intro _ verified _ still later changed _ remoteRef _
          exact changed _ still.2
  · intro later _ _ remoteRef same
    cases same

/-- A push or a deletion of the bundle engine. -/
theorem safe_bundlePush
    (repo : LocalRepo)
    (zip : Bool)
    (ttl now : Int)
    (world : World) :
    Safe (terms bucketPrefix .bundle spec) answer
      (whenOk (Reported bucketPrefix .bundle))
      (Bundle.pushOne bucketPrefix repo zip ttl now spec) world := by
  have permits :
      Permits bucketPrefix spec.remoteRef .bundle
        (Gentle bucketPrefix .bundle) :=
    permits_bundle
  unfold Bundle.pushOne
  apply
    (safe_gentle
      (Bundle.issues_preparePush permits repo zip spec.force
        spec.localSpec)
      (Bundle.returns_preparePush repo zip spec)).andThen
  intro prepared found _ prepares
  cases prepared with
  | done outcome =>
      intro later _ _ remoteRef same
      exact absurd (congrArg _ same) (prepares.done remoteRef)
  | ready state =>
      apply safe_underRefLock (@locks_gentle _ _ _ .bundle)
      intro locked _
      exact safe_bundlePerform state locked
  | delete remoteRef =>
      rcases prepares.delete remoteRef rfl with ⟨rfl, deletion⟩
      apply safe_underRefLock (@locks_gentle _ _ _ .bundle)
      intro locked _
      exact safe_bundleDelete deletion locked

end BundlePush

/-! ## The packchain engine -/

section PackchainPush

variable
    [Platform]
    {bucketPrefix : Option Text}
    {spec : PushSpec}

/-- A chain that is found has `FORMAT` name its engine. -/
theorem safe_loadChain
    (refName : RefName)
    (world : World) :
    Safe (terms bucketPrefix .packchain spec) answer
      (whenOk fun prior later =>
        prior ≠ none → Names bucketPrefix later .packchain)
      (loadChain bucketPrefix refName) world := by
  intro found _ chains _
  have gentle :
      Gentle bucketPrefix .packchain
        (.get (chainKey bucketPrefix refName)) :=
    gentle_reads _ trivial
  refine ⟨gentle.answer chains, ?_⟩
  simp only [answer]
  cases object : found.get? (chainKey bucketPrefix refName) with
  | none =>
      simp only [Prog.ofExcept, Prog.attempt, Prog.bind]
      exact fun later _ _ absent => absurd rfl absent
  | some stored =>
      have named := chains refName (by rw [object]; rfl)
      simp only [Prog.ofExcept, Prog.attempt, Prog.bind]
      cases ChainManifest.fromJsonBytes stored.body with
      | ok manifest =>
          exact fun later changed _ _ => changed _ named
      | error error => exact fun later _ _ => trivial

/-- A push that is up to date has found a chain. -/
theorem safe_packchainPrepare
    (repo : LocalRepo)
    (world : World) :
    Safe (terms bucketPrefix .packchain spec) answer
      (whenOk fun prepared later =>
        ∀ outcome, prepared = .done outcome →
          Reported bucketPrefix .packchain outcome later)
      (Packchain.preparePush bucketPrefix repo spec) world := by
  unfold Packchain.preparePush
  apply (safe_loadChain spec.remoteRef world).convert.andThen
  intro prior read _ known
  apply Safe.check
  intro probe _
  cases probe with
  | error refusal =>
      intro later _ _ outcome same remoteRef ok
      cases same
      cases refusal <;> cases ok
  | ok found =>
      simp only
      split
      next upToDate =>
          have chain : prior ≠ none := by
            rintro rfl
            simp at upToDate
          intro later changed _ outcome _ remoteRef _
          exact changed _ (known chain)
      · apply Safe.checkAs
        intro built _
        have uploading :
            Issues Call.Credible (Gentle bucketPrefix .packchain)
              (Packchain.uploadPackIdxBaseline bucketPrefix
                spec.remoteRef found.localSha built.1 built.2) := by
          apply Packchain.issues_uploadPackIdxBaseline
          intro slot content upload
          apply gentle_of_slot slot
          · exact fun _ writes => writes
          · rintro rfl
            exact upload
          · rintro other rfl
            exact upload
        apply (safe_gentle uploading (returns_any _)).andThen
        intro _ _ _ _ later _ _ outcome same
        cases same

theorem permits_packchain (refName : RefName) :
    Permits bucketPrefix refName .packchain
      (FormatOnce bucketPrefix .packchain) where
  reads := fun request reads => (gentle_reads request reads).1
  lock := locks_gentle.lock.1
  unlock := locks_gentle.unlock.1
  put := by
    intro slot body written writes
    have same : formatKey bucketPrefix = slot.key bucketPrefix := writes
    rw [formatKey_eq, Slot.key_inj] at same
    rw [← same] at written
    exact written.elim
  drop := fun _ =>
    And.left <|
      gentle_of_slot (.ref refName .pathIndex) (fun _ writes => writes)
        (by simp) (by simp)
  head :=
    And.left <|
      gentle_of_slot .head (fun _ writes => writes) (by simp) (by simp)
  format := by
    intro _
    rw [formatKey_eq]

/-- The locked section of a packchain push writes `FORMAT` first. -/
theorem safe_packchainPerform
    (repo : LocalRepo)
    (state : Packchain.ReadyState)
    (world : World) :
    Safe (terms bucketPrefix .packchain spec) answer
      (whenOk (Reported bucketPrefix .packchain))
      (Packchain.performPushUnderLock bucketPrefix repo state) world := by
  have reading :
      Issues Call.Credible (Gentle bucketPrefix .packchain)
        (loadChain bucketPrefix state.remoteRef) :=
    issues_loadChain gentle_reads _ _
  unfold Packchain.performPushUnderLock
  apply (safe_gentle reading.mapError (returns_any _)).andThen
  intro current _ _ _
  have checking :
      Issues Call.Credible (Gentle bucketPrefix .packchain)
        (Packchain.forceRefused bucketPrefix repo state current) :=
    Packchain.issues_forceRefused gentle_reads _ _ _ _
  apply (safe_gentle checking (returns_any _)).andThen
  intro refused _ _ _
  split
  · intro later _ _ remoteRef same
    cases same
  split
  · intro later _ _ remoteRef same
    cases same
  apply Safe.checkAs
  intro pathIndex _
  have committing :=
    Packchain.issues_commitPush
      (@permits_packchain _ bucketPrefix state.remoteRef) pathIndex
  unfold Packchain.commitPush
  apply safe_writeFormat.andThen
  intro _ marked _ named
  have rest := committing.2 (.ok true) trivial
  apply (safe_packchain_named rest named).weaken
  intro outcome later _ holds
  cases outcome with
  | ok reported => exact fun _ _ => holds.2
  | error error => trivial

/-- A deletion of the packchain engine has found a chain. -/
theorem safe_packchainDelete
    (refName : RefName)
    (world : World) :
    Safe (terms bucketPrefix .packchain spec) answer
      (whenOk (Reported bucketPrefix .packchain))
      (Packchain.deleteUnderLock bucketPrefix refName) world := by
  intro found _ chains _
  have gentle :
      Gentle bucketPrefix .packchain
        (.head (chainKey bucketPrefix refName)) :=
    gentle_reads _ trivial
  have deleting :=
    Packchain.issues_deleteUnderLock
      (@permits_packchain _ bucketPrefix refName) formatOnce_sweeps
  refine ⟨gentle.answer chains, ?_⟩
  simp only [answer]
  cases object : found.get? (chainKey bucketPrefix refName) with
  | none =>
      intro later _ _ remoteRef same
      cases same
  | some stored =>
      have named := chains refName (by rw [object]; rfl)
      have rest :=
        deleting.2
          (.ok ⟨chainKey bucketPrefix refName, stored.lastModified⟩)
          trivial
      apply (safe_packchain_named rest named).weaken
      intro outcome later _ holds
      cases outcome with
      | ok reported => exact fun _ _ => holds.2
      | error error => trivial

/-- A push or a deletion of the packchain engine. -/
theorem safe_packchainPush
    (repo : LocalRepo)
    (ttl now : Int)
    (world : World) :
    Safe (terms bucketPrefix .packchain spec) answer
      (whenOk (Reported bucketPrefix .packchain))
      (Packchain.pushOne bucketPrefix repo ttl now spec) world := by
  by_cases named : spec.localSpec ≠ []
  · rw [Packchain.pushOne_named repo ttl now named]
    apply (safe_packchainPrepare repo world).andThen
    intro prepared ended _ reported
    cases prepared with
    | done outcome =>
        intro later changed _ remoteRef same
        exact changed _ (reported outcome rfl remoteRef same)
    | ready state =>
        apply safe_underRefLock (@locks_gentle _ _ _ .packchain)
        intro locked _
        exact safe_packchainPerform repo state locked
  · unfold Packchain.pushOne Packchain.deleteRemoteRefPackchain
    rw [if_pos (not_not.1 named)]
    apply safe_underRefLock (@locks_gentle _ _ _ .packchain)
    intro locked _
    exact safe_packchainDelete spec.remoteRef locked

end PackchainPush

/-! ## Runs of the clients -/

section Runs

variable
    [Platform]
    {bucketPrefix : Option Text}
    {ι : Type}

/-- What is known of a client. -/
def Sound
    (bucketPrefix : Option Text)
    (world : World) : Phase → Prop
  | .connecting program =>
      Issues Call.Credible (Gentle bucketPrefix .bundle) program
  | .pushing engine spec program =>
      Safe (terms bucketPrefix engine spec) answer
        (whenOk (Reported bucketPrefix engine)) program world
  | _ => True

/-- What holds between any two steps. -/
structure Invariant
    (bucketPrefix : Option Text) (state : State ι) : Prop where
  chains : ChainsNamed bucketPrefix state.world
  sound :
    ∀ client, Sound bucketPrefix state.world (state.phase client)
  reported :
    ∀ report ∈ state.reported,
      Names bucketPrefix state.world report.engine

theorem Sound.later
    {before after : World}
    {phase : Phase}
    (sound : Sound bucketPrefix before phase)
    (settled : Settled bucketPrefix before after) :
    Sound bucketPrefix after phase := by
  cases phase with
  | offline => trivial
  | connecting program => exact sound
  | connected engine => trivial
  | pushing engine spec program => exact Safe.later sound settled

/-- A new connection only reads. -/
theorem issues_validateFormat
    (kind : BackendKind)
    (urlEngine : Option StorageEngine) :
    Issues Call.Credible (Gentle bucketPrefix .bundle)
      (validateFormat kind bucketPrefix urlEngine) := by
  apply issues_request (gentle_reads (.get _) trivial)
  intro reply
  rcases reply with error | body
  · cases error <;> trivial
  · exact issues_ofExcept _

/-- A new push reports only what `FORMAT` names. -/
theorem safe_flushPush
    (engine : StorageEngine)
    (repo : LocalRepo)
    (zip : Bool)
    (ttl now : Int)
    (spec : PushSpec)
    (world : World) :
    Safe (terms bucketPrefix engine spec) answer
      (whenOk (Reported bucketPrefix engine))
      (flushPush bucketPrefix engine repo zip ttl now spec) world := by
  cases engine with
  | bundle => exact safe_bundlePush repo zip ttl now world
  | packchain => exact safe_packchainPush repo ttl now world

variable [DecidableEq ι]

/-- The invariant outlives a step of one client. -/
theorem Invariant.move
    {state : State ι}
    (invariant : Invariant bucketPrefix state)
    (client : ι)
    {world : World}
    (chains : ChainsNamed bucketPrefix world)
    (settled : Settled bucketPrefix state.world world)
    {phase : Phase}
    (sound : Sound bucketPrefix world phase)
    {reports : List Report}
    (reported :
      ∀ report ∈ reports, Names bucketPrefix world report.engine) :
    Invariant bucketPrefix (state.move client world phase reports) where
  chains := chains
  sound := by
    intro other
    unfold State.move
    by_cases same : other = client
    · subst same
      simp only [Function.update_self]
      exact sound
    · simp only [Function.update_of_ne same]
      exact (invariant.sound other).later settled
  reported := by
    intro report member
    rcases List.mem_append.1 member with new | old
    · exact reported report new
    · exact settled _ (invariant.reported report old)

/-- A step that changes no object keeps the invariant. -/
theorem Invariant.moveOnly
    {state : State ι}
    (invariant : Invariant bucketPrefix state)
    (client : ι)
    {phase : Phase}
    (sound : Sound bucketPrefix state.world phase) :
    Invariant bucketPrefix (state.move client state.world phase []) :=
  invariant.move client invariant.chains (fun _ named => named) sound
    (by simp)

/-- A program that has ended reports only what `FORMAT` names. -/
theorem settlePush_sound
    {engine : StorageEngine}
    {spec : PushSpec}
    {program : Program PushError PushOutcome}
    {world : World}
    (chains : ChainsNamed bucketPrefix world)
    (safe :
      Safe (terms bucketPrefix engine spec) answer
        (whenOk (Reported bucketPrefix engine)) program world)
    {ended : Phase × List Report}
    (settled : settlePush engine program = some ended) :
    Sound bucketPrefix world ended.1 ∧
      ∀ report ∈ ended.2, Names bucketPrefix world report.engine := by
  cases program with
  | done outcome =>
      cases outcome with
      | ok remoteRef =>
          cases settled
          refine ⟨trivial, ?_⟩
          intro report member
          rw [List.mem_singleton.1 member]
          exact safe world (fun _ named => named) chains remoteRef rfl
      | error remoteRef message =>
          cases settled
          exact ⟨trivial, by simp⟩
  | fail error =>
      cases settled
      exact ⟨trivial, by simp⟩
  | call request next => cases settled

theorem Invariant.step
    {state next : State ι}
    (invariant : Invariant bucketPrefix state)
    {action : Action ι}
    (allowed : NoConflict bucketPrefix state action)
    (stepped : step? bucketPrefix state action = some next) :
    Invariant bucketPrefix next := by
  cases action with
  | connect client kind urlEngine =>
      simp only [step?] at stepped
      split at stepped <;> cases stepped
      exact
        invariant.moveOnly client (issues_validateFormat kind urlEngine)
  | push client repo zip ttl spec delay =>
      simp only [step?] at stepped
      split at stepped <;> cases stepped
      exact
        invariant.moveOnly client (safe_flushPush _ repo zip ttl _ spec _)
  | call client =>
      have sound := invariant.sound client
      simp only [step?] at stepped
      simp only [NoConflict] at allowed
      split at stepped
      next request rest phase =>
          rw [phase] at sound
          cases stepped
          have answered := sound.1.answer invariant.chains
          have rests :
              Sound bucketPrefix (answer request state.world).2
                (.connecting (rest (answer request state.world).1)) :=
            sound.2 _ (credible_answer request state.world)
          exact
            invariant.move client answered.1 answered.2 rests (by simp)
      next engine spec request rest phase =>
          rw [phase] at sound allowed
          cases stepped
          have answered :=
            sound state.world (fun _ named => named) invariant.chains
              allowed
          have rests :
              Sound bucketPrefix (answer request state.world).2
                (.pushing engine spec
                  (rest (answer request state.world).1)) :=
            answered.2
          exact
            invariant.move client answered.1.1 answered.1.2 rests
              (by simp)
      next => cases stepped
  | settle client =>
      have sound := invariant.sound client
      simp only [step?] at stepped
      split at stepped
      · cases stepped
        exact invariant.moveOnly client trivial
      · cases stepped
        exact invariant.moveOnly client trivial
      next engine spec program phase =>
          rw [phase] at sound
          rcases Option.map_eq_some_iff.1 stepped with
            ⟨ended, settled, rfl⟩
          rcases settlePush_sound invariant.chains sound settled with
            ⟨after, reports⟩
          exact
            invariant.move client invariant.chains (fun _ named => named)
              after reports
      next => cases stepped
  | leave client =>
      cases stepped
      exact invariant.moveOnly client trivial
  | elapse duration =>
      cases stepped
      have sound (client : ι) :
          Sound bucketPrefix (state.world.wait duration)
            (state.phase client) :=
        (invariant.sound client).later fun _ named => named
      exact ⟨invariant.chains, sound, invariant.reported⟩

/--
In every run whose pushes meet no other engine, every push that has reported
`ok` was made with the engine that `FORMAT` names.
-/
theorem reported_named
    {world : World}
    (vacant :
      ∀ slot : Slot, world.get? (slot.key bucketPrefix) = none)
    {state : State ι}
    (reached :
      (step? bucketPrefix).Reaches (NoConflict bucketPrefix)
        (.quiet world) state) :
    (∀ report ∈ state.reported,
        Names bucketPrefix state.world report.engine) ∧
      ∀ left ∈ state.reported, ∀ right ∈ state.reported,
        left.engine = right.engine := by
  have initial :
      Invariant bucketPrefix (.quiet world : State ι) := by
    constructor
    · intro refName present
      rw [chainKey_eq] at present
      simp only [State.quiet, vacant] at present
      cases present
    · intro client
      trivial
    · intro report member
      cases member
  have invariant : Invariant bucketPrefix state :=
    reached.invariant initial fun _ _ _ before allowed stepped =>
      before.step allowed stepped
  refine ⟨invariant.reported, ?_⟩
  intro left first right second
  exact
    Names.unique bucketPrefix (invariant.reported left first)
      (invariant.reported right second)

end Runs

/-! ## Two schedules -/

section Schedules

attribute [local instance] Platform.simple

/-- Enough calls of a client to end any program of these schedules. -/
def calls (client count : Nat) : List (Action Nat) :=
  List.replicate count (.call client)

/-- A client connects. -/
def connects
    (client : Nat) (urlEngine : Option StorageEngine) :
    List (Action Nat) :=
  [.connect client .s3 urlEngine, .call client, .settle client]

/-- A second branch. -/
def topic : RefName :=
  ⟨lit "refs/heads/topic", by decide +kernel⟩

/--
A client of either engine connects while there is no `FORMAT`; then both
push.
-/
def bothEngines : List (Action Nat) :=
  connects 0 (some .packchain) ++ connects 1 none ++
    [.push 0 .linear false 60 ⟨false, ['a'], .main⟩ 0] ++ calls 0 11 ++
    [.settle 0, .push 1 .linear false 60 ⟨false, ['b'], topic⟩ 0] ++
    calls 1 8 ++ [.settle 1]

/-- Pushes of both engines report `ok`. -/
theorem not_reported_named :
    ¬ ∀ state : State Nat,
      (step? none).Reaches (fun _ _ => True) (.quiet (.empty 0)) state →
        (∀ report ∈ state.reported,
            Names none state.world report.engine) ∧
          ∀ left ∈ state.reported, ∀ right ∈ state.reported,
            left.engine = right.engine := by
  intro always
  have executed :
      ((step? none).execute? (fun _ _ => True) bothEngines
          (.quiet (.empty 0))).map State.reported =
        some [⟨.bundle, topic⟩, ⟨.packchain, .main⟩] := by
    decide +kernel
  rcases Option.map_eq_some_iff.1 executed with ⟨state, reached, known⟩
  have exclusive :=
    (always state (Machine.Reaches.refl.execute reached)).2
  rw [known] at exclusive
  have same := exclusive ⟨.bundle, topic⟩ (by simp) ⟨.packchain, .main⟩
    (by simp)
  cases same

/-- The second client connects once the first has pushed. -/
def oneEngine : List (Action Nat) :=
  connects 0 (some .packchain) ++
    [.push 0 .linear false 60 ⟨false, ['a'], .main⟩ 0] ++ calls 0 11 ++
    [.settle 0] ++ connects 1 none ++
    [.push 1 .linear false 60 ⟨false, ['b'], topic⟩ 0] ++ calls 1 11 ++
    [.settle 1]

theorem reported_named_oneEngine :
    ∃ state : State Nat,
      (step? none).execute? (NoConflict none) oneEngine
          (.quiet (.empty 0)) = some state ∧
        state.reported = [⟨.packchain, topic⟩, ⟨.packchain, .main⟩] ∧
        Names none state.world .packchain := by
  have executed :
      ((step? none).execute? (NoConflict none) oneEngine
          (.quiet (.empty 0))).map State.reported =
        some [⟨.packchain, topic⟩, ⟨.packchain, .main⟩] := by
    decide +kernel
  rcases Option.map_eq_some_iff.1 executed with ⟨state, reached, known⟩
  have named :=
    reported_named (fun slot => World.get?_empty _ 0)
      (Machine.Reaches.refl.execute reached)
  refine ⟨state, reached, known, ?_⟩
  exact named.1 ⟨.packchain, topic⟩ (by simp [known])

end Schedules

end GitRemoteObjectStore.EngineExclusivity
