import GitRemoteObjectStore.Interference
import GitRemoteObjectStore.BundleRuns
import GitRemoteObjectStore.Engines
import GitRemoteObjectStore.PackchainRuns

/-!
# What the commands write

The calls a push or a compaction of a reference makes, whatever the store
replies: it writes slots of the reference itself and of no other one, packs,
baseline tombstones, and creates `HEAD` and `FORMAT`.  A deletion, and a
bundle push that drops the prior bundle, also delete keys they have listed.
-/

namespace GitRemoteObjectStore

open CallProgram Prog

variable [Platform]

/-- The slots a push or a compaction overwrites. -/
def Slot.WrittenBy
    (engine : StorageEngine) (refName : RefName) : Slot → Prop
  | .ref other (.bundle _) => other = refName
  | .ref other .chain => engine = .packchain ∧ other = refName
  | .ref other .pathIndex => engine = .packchain ∧ other = refName
  | .ref other .archive => engine = .bundle ∧ other = refName
  | .pack _ => engine = .packchain
  | .idx _ => engine = .packchain
  | .baselineTombstone _ => True
  | _ => False

/-- The calls that take and release a lock are among the allowed ones. -/
structure Locks
    (bucketPrefix : Option Text)
    (refName : RefName)
    (allowed : Call → Prop) : Prop where
  reads : ∀ request : Call, request.Reads → allowed request
  lock :
    allowed
      (.putIfAbsent ((Slot.ref refName .lock).key bucketPrefix) (.text []))
  unlock :
    allowed (.delete ((Slot.ref refName .lock).key bucketPrefix))

/-- The calls of commands on one reference are among the allowed ones. -/
structure Permits
    (bucketPrefix : Option Text)
    (refName : RefName)
    (engine : StorageEngine)
    (allowed : Call → Prop) : Prop extends
    Locks bucketPrefix refName allowed where
  put :
    ∀ (slot : Slot) (body : Body),
      slot.WrittenBy engine refName →
        allowed (.put (slot.key bucketPrefix) body)
  drop :
    engine = .packchain →
      allowed (.delete ((Slot.ref refName .pathIndex).key bucketPrefix))
  head :
    allowed
      (.putIfAbsent (Slot.head.key bucketPrefix) (.text refName.text))
  format :
    allowed
      (.putIfAbsent (Slot.format.key bucketPrefix) (.text engine.asStr))

/-- What is listed under a reference may be deleted. -/
def Sweeps
    (bucketPrefix : Option Text)
    (refName : RefName)
    (allowed : Call → Prop) : Prop :=
  ∀ key,
    refListingPrefix bucketPrefix refName <+: key →
      allowed (.delete key)

variable
    {bucketPrefix : Option Text}
    {refName : RefName}
    {engine : StorageEngine}
    {allowed : Call → Prop}

/-- The slots a push or a compaction may change. -/
def Slot.TouchedBy
    (engine : StorageEngine) (refName : RefName) (slot : Slot) : Prop :=
  slot.WrittenBy engine refName ∨ slot = .ref refName .lock ∨
    slot = .head ∨ slot = .format

/-- Everything else may be asked to stay as it is. -/
theorem permits_aside
    {key : Text}
    (aside :
      ∀ slot : Slot,
        slot.TouchedBy engine refName → key ≠ slot.key bucketPrefix) :
    Permits bucketPrefix refName engine
      (fun request => ¬ request.Writes key) where
  reads := by
    intro request reads
    cases request with
    | put other body => exact reads.elim
    | putIfAbsent other body => exact reads.elim
    | delete other => exact reads.elim
    | _ => exact fun writes => writes
  put := fun slot body written => aside slot (Or.inl written)
  drop := by
    rintro rfl
    exact aside _ (Or.inl ⟨rfl, rfl⟩)
  lock := aside _ (Or.inr (Or.inl rfl))
  unlock := aside _ (Or.inr (Or.inl rfl))
  head := aside _ (Or.inr (Or.inr (Or.inl rfl)))
  format := aside _ (Or.inr (Or.inr (Or.inr rfl)))

/-! ## The lock -/

namespace Locks

variable (locks : Locks bucketPrefix refName allowed)

include locks

theorem issues_acquireLock (ttl now : Int) :
    Issues Call.Credible allowed
      (acquireLock (lockKey bucketPrefix refName) ttl now) := by
  have locking :
      Issues Call.Credible allowed
        (Store.putIfAbsent (lockKey bucketPrefix refName)
          (.text [])) := by
    rw [lockKey_eq]
    apply issues_request locks.lock
    simp
  unfold acquireLock
  apply locking.bind
  intro created
  split
  · trivial
  · apply issues_request (locks.reads (.head _) trivial)
    intro reply
    rcases reply with error | found
    · cases error <;> trivial
    · simp only [Prog.ofExcept, Prog.attempt, Prog.bind]
      split
      · trivial
      · apply Issues.bind
        · apply issues_deleteIdempotent
          rw [lockKey_eq]
          exact locks.unlock
        · intro _
          exact locking

theorem issues_holdingLock
    {ε α : Type}
    {work : Program ε α}
    (working : Issues Call.Credible allowed work)
    (ttl now : Int) :
    Issues Call.Credible allowed
      (holdingLock (lockKey bucketPrefix refName) ttl now work) := by
  have releasing :
      Issues Call.Credible allowed
        (releaseLock (lockKey bucketPrefix refName)) := by
    apply issues_deleteIdempotent
    rw [lockKey_eq]
    exact locks.unlock
  unfold holdingLock
  apply (locks.issues_acquireLock ttl now).bind
  intro acquired
  split
  · apply working.attempt.bind
    intro _
    apply releasing.attempt.bind
    intro _
    trivial
  · trivial

theorem issues_underRefLock
    {work : Program PushError PushOutcome}
    (working : Issues Call.Credible allowed work)
    (ttl now : Int)
    (who : String) :
    Issues Call.Credible allowed
      (underRefLock bucketPrefix refName ttl now who work) := by
  unfold underRefLock
  apply (locks.issues_holdingLock working ttl now).mapError.bind
  intro held
  cases held with
  | none => trivial
  | some ended => exact issues_ofExcept _

end Locks

theorem Permits.put_tombstone
    (permits : Permits bucketPrefix refName engine allowed)
    (runId : Component)
    (record : BaselineTombstone) :
    allowed
      (.put (baselineTombstoneKey (prefixText bucketPrefix) runId)
        (.baselineTombstone record)) := by
  rw [baselineTombstoneKey_eq]
  exact permits.put _ _ trivial

/-! ## The packchain engine -/

namespace Packchain

/-- Before the lock a push reads, and uploads what nobody names yet. -/
theorem issues_preparePush
    (reads : ∀ request : Call, request.Reads → allowed request)
    (upload :
      ∀ (slot : Slot) (content : List UInt8),
        IsUpload refName slot →
          allowed (.put (slot.key bucketPrefix) (.file content)))
    (repo : LocalRepo)
    (force : Bool)
    (localSpec : Text) :
    Issues Call.Credible allowed
      (preparePush bucketPrefix repo ⟨force, localSpec, refName⟩) := by
  unfold preparePush
  apply (issues_loadChain reads _ _).mapError.bind
  intro prior
  apply (issues_ofExcept _).bind
  intro probe
  cases probe with
  | error refusal => trivial
  | ok found =>
      simp only
      split
      · trivial
      · apply (issues_ofExcept _).mapError.bind
        intro built
        apply Issues.bind
        · apply issues_uploadPackIdxBaseline
          exact upload
        · intro _
          trivial

theorem writtenBy_of_isUpload
    {slot : Slot}
    (upload : IsUpload refName slot) :
    slot.WrittenBy .packchain refName := by
  cases slot with
  | ref other entry =>
      cases entry with
      | bundle sha => exact upload
      | _ => exact upload.elim
  | pack sha => rfl
  | idx sha => rfl
  | _ => exact upload.elim

/-- A prepared push is one of the reference it was prepared for. -/
theorem returns_preparePush
    (repo : LocalRepo)
    (spec : PushSpec) :
    Returns Call.Credible
      (fun prepared =>
        ∀ state, prepared = .ready state →
          state.remoteRef = spec.remoteRef)
      (preparePush bucketPrefix repo spec) := by
  unfold preparePush
  apply Returns.after
  intro prior
  apply Returns.after
  intro probe
  cases probe with
  | error refusal =>
      intro state same
      cases same
  | ok found =>
      simp only
      split
      · intro state same
        cases same
      · apply Returns.after
        intro built
        apply Returns.after
        intro _ state same
        cases same
        rfl

/-- The writes of a push. -/
theorem issues_commitPush
    {state : ReadyState}
    (permits :
      Permits bucketPrefix state.remoteRef .packchain allowed)
    (pathIndex : Option PathIndex) :
    Issues Call.Credible allowed
      (commitPush bucketPrefix state pathIndex) := by
  have creating
      {slot : Slot}
      {body : Body}
      (allows : allowed (.putIfAbsent (slot.key bucketPrefix) body)) :
      Issues Call.Credible allowed
        ((Store.putIfAbsent (slot.key bucketPrefix) body).mapError
          PushError.store) := by
    apply Issues.mapError
    apply issues_request allows
    simp
  unfold commitPush
  rw [formatKey_eq, headKey_eq]
  apply (creating permits.format).bind
  intro _
  apply (creating permits.head).bind
  intro _
  apply Issues.bind
  · apply Issues.mapError
    apply Issues.mapError
    rw [chainKey_eq]
    apply issues_request
    · apply permits.put
      exact ⟨rfl, rfl⟩
    · simp
  intro _
  apply Issues.bind
  · apply issues_writeOrDropPathIndex
    · intro index
      apply permits.put
      exact ⟨rfl, rfl⟩
    · exact permits.drop rfl
  intro _
  split
  · apply Issues.bind
    · exact
        issues_forcePushBaselineCleanup permits.reads _ _ _ _
          permits.put_tombstone
    · intro _
      trivial
  · trivial

/-- The locked section of a push. -/
theorem issues_performPushUnderLock
    (permits :
      Permits bucketPrefix refName .packchain allowed)
    (repo : LocalRepo)
    {state : ReadyState}
    (same : state.remoteRef = refName) :
    Issues Call.Credible allowed
      (performPushUnderLock bucketPrefix repo state) := by
  subst same
  unfold performPushUnderLock
  apply (issues_loadChain permits.reads _ _).mapError.bind
  intro current
  apply (issues_forceRefused permits.reads _ _ _ _).bind
  intro refused
  split
  · trivial
  split
  · trivial
  apply (issues_ofExcept _).mapError.bind
  intro pathIndex
  exact issues_commitPush permits pathIndex

/-- A push of something. -/
theorem issues_pushOne
    (permits :
      Permits bucketPrefix refName .packchain allowed)
    (repo : LocalRepo)
    (ttl now : Int)
    (force : Bool)
    {localSpec : Text}
    (named : localSpec ≠ []) :
    Issues Call.Credible allowed
      (pushOne bucketPrefix repo ttl now ⟨force, localSpec, refName⟩) := by
  rw [pushOne_named repo ttl now named]
  apply
    (issues_preparePush permits.reads
      (fun slot content written =>
        permits.put slot _ (writtenBy_of_isUpload written))
      repo force localSpec).bindReturns
      (returns_preparePush repo _)
  intro prepared same
  cases prepared with
  | done outcome => trivial
  | ready state =>
      have own := same state rfl
      simp only at own ⊢
      rw [own]
      exact
        permits.issues_underRefLock
          (issues_performPushUnderLock permits repo own) ttl now _

/-! ### Deletions and compactions -/

theorem issues_deleteUnderLock
    (permits : Permits bucketPrefix refName engine allowed)
    (sweeps : Sweeps bucketPrefix refName allowed) :
    Issues Call.Credible allowed
      (deleteUnderLock bucketPrefix refName) := by
  unfold deleteUnderLock
  apply issues_request (permits.reads (.head _) trivial)
  intro reply
  rcases reply with error | found
  · cases error <;> trivial
  · apply issues_list_bind (permits.reads (.list _) trivial)
    intro entries begins
    split
    · trivial
    · apply
        (issues_tryWriteBaselineTombstone permits.reads _ _ _
          permits.put_tombstone).bind
      intro deferred
      apply Issues.bind
      · apply Issues.mapError
        apply issues_forEach
        intro entry member
        split
        · trivial
        split
        · trivial
        · exact issues_deleteIdempotent (sweeps _ (begins entry member))
      · intro _
        apply
          (issues_verifyNoOrphanProtectedAfterDelete permits.reads _
            _).bind
        intro _
        trivial

/-- A push or a deletion. -/
theorem issues_pushOrDelete
    (permits :
      Permits bucketPrefix refName .packchain allowed)
    (sweeps : Sweeps bucketPrefix refName allowed)
    (repo : LocalRepo)
    (ttl now : Int)
    (force : Bool)
    (localSpec : Text) :
    Issues Call.Credible allowed
      (pushOne bucketPrefix repo ttl now ⟨force, localSpec, refName⟩) := by
  by_cases named : localSpec ≠ []
  · exact issues_pushOne permits repo ttl now force named
  · unfold pushOne
    rw [if_pos (not_not.1 named)]
    exact
      permits.issues_underRefLock (issues_deleteUnderLock permits sweeps)
        ttl now _

theorem issues_compactUnderLock
    (permits : Permits bucketPrefix refName .packchain allowed)
    (scratch : Scratch) :
    Issues Call.Credible allowed
      (compactUnderLock bucketPrefix scratch refName) := by
  have putting
      {slot : Slot}
      {body : Body}
      (written : slot.WrittenBy .packchain refName) :
      Issues Call.Credible allowed
        ((Store.putBytes (slot.key bucketPrefix) body).mapError
          PackchainError.store) := by
    apply Issues.mapError
    apply issues_request (permits.put _ _ written)
    simp
  unfold compactUnderLock
  apply (issues_loadChain permits.reads _ _).bind
  intro found
  cases found with
  | none => trivial
  | some chain =>
      apply (issues_downloadChainArtefacts permits.reads _ _ _ _).bind
      intro directory
      apply (issues_ofExcept _).bind
      intro built
      unfold commitCompaction
      simp only [packKey_eq, packIdxKey_eq, bundleKey_eq]
      apply Issues.bind
      · exact putting rfl
      intro _
      apply Issues.bind
      · exact putting rfl
      intro _
      apply Issues.bind
      · exact putting rfl
      intro _
      unfold writeChain
      rw [chainKey_eq]
      apply Issues.bind
      · exact putting ⟨rfl, rfl⟩
      intro _
      apply Issues.bind
      · unfold writePathIndexIfAny writePathIndex
        rw [pathIndexKey_eq]
        cases built.2.1 with
        | none => trivial
        | some index => exact putting ⟨rfl, rfl⟩
      intro _
      apply
        (issues_writeBaselineTombstoneBestEffort permits.reads _ _ _ _
          permits.put_tombstone).bind
      intro _
      trivial

theorem issues_compact
    (permits : Permits bucketPrefix refName .packchain allowed)
    (scratch : Scratch)
    (force : Bool)
    (ttl : Int) :
    Issues Call.Credible allowed
      (compact bucketPrefix scratch refName force ttl) := by
  unfold compact
  apply (issues_loadChain permits.reads _ _).bind
  intro found
  cases found with
  | none => trivial
  | some prior =>
      simp only
      split
      · trivial
      · apply issues_request (permits.reads .nowUtc trivial)
        intro now
        apply
          (permits.issues_holdingLock
            (issues_compactUnderLock permits scratch) ttl
            now).mapError.bind
        intro ended
        rcases ended with _ | ⟨_ | _, _⟩ <;> trivial

end Packchain

/-! ## The bundle engine -/

namespace Bundle

theorem issues_tombstonedBundleKeys
    (permits : Permits bucketPrefix refName engine allowed) :
    Issues Call.Credible allowed
      (tombstonedBundleKeys bucketPrefix) := by
  unfold tombstonedBundleKeys
  apply issues_request (permits.reads (.list _) trivial)
  intro reply
  rcases reply with error | metas
  · cases error <;> trivial
  · apply issues_foldEach
    intro keys entry _
    split
    · apply issues_request (permits.reads (.get _) trivial)
      intro reply
      rcases reply with error | body
      · cases error <;> trivial
      · trivial
    · trivial

/-- Every visible entry was listed under its reference. -/
theorem returns_bundlesForRef (hidden : List Text) :
    Returns Call.Credible
      (fun entries =>
        ∀ entry ∈ entries,
          refListingPrefix bucketPrefix refName <+: entry.key)
      (bundlesForRef bucketPrefix refName hidden) := by
  intro reply credible
  cases reply with
  | error error => trivial
  | ok metas =>
      intro entry member
      exact
        credible entry
          (List.mem_filter.1 (List.mem_filter.1 member).1).1

theorem issues_bundlesForRef
    (permits : Permits bucketPrefix refName engine allowed)
    (hidden : List Text) :
    Issues Call.Credible allowed
      (bundlesForRef bucketPrefix refName hidden) := by
  apply issues_request (permits.reads (.list _) trivial)
  intro reply
  cases reply <;> trivial

theorem issues_preparePush
    (permits : Permits bucketPrefix refName engine allowed)
    (repo : LocalRepo)
    (zip force : Bool)
    (localSpec : Text) :
    Issues Call.Credible allowed
      (preparePush bucketPrefix repo zip
        ⟨force, localSpec, refName⟩) := by
  unfold preparePush
  split
  · trivial
  apply (issues_tombstonedBundleKeys permits).mapError.bind
  intro hidden
  apply (issues_bundlesForRef permits hidden).mapError.bind
  intro preBundles
  split
  · trivial
  simp only
  split
  · trivial
  apply (issues_ofExcept _).mapError.bind
  intro probe
  rcases probe with refusal | found
  · cases refusal <;> trivial
  · apply (issues_ofExcept _).mapError.bind
    intro bundle
    trivial

/-- What a preparation of a push or a deletion goes on with. -/
structure PreparedFor (spec : PushSpec) (prepared : PrepareOutcome) :
    Prop where
  ready :
    ∀ state, prepared = .ready state → state.remoteRef = spec.remoteRef
  delete :
    ∀ remoteRef, prepared = .delete remoteRef →
      remoteRef = spec.remoteRef ∧ spec.localSpec = []
  done : ∀ remoteRef, prepared ≠ .done (.ok remoteRef)

theorem preparedFor_error
    (spec : PushSpec)
    (remoteRef : RefName)
    (message : String) :
    PreparedFor spec (.done (.error remoteRef message)) where
  ready := by
    intro state same
    cases same
  delete := by
    intro remoteRef same
    cases same
  done := by
    intro remoteRef same
    cases same

theorem returns_preparePush
    (repo : LocalRepo)
    (zip : Bool)
    (spec : PushSpec) :
    Returns Call.Credible (PreparedFor spec)
      (preparePush bucketPrefix repo zip spec) := by
  unfold preparePush
  split
  next empty =>
      constructor
      · intro state same
        cases same
      · intro remoteRef same
        cases same
        exact ⟨rfl, empty⟩
      · intro remoteRef same
        cases same
  apply Returns.after
  intro hidden
  apply Returns.after
  intro preBundles
  split
  · exact preparedFor_error _ _ _
  simp only
  split
  · exact preparedFor_error _ _ _
  apply Returns.after
  intro probe
  rcases probe with refusal | found
  · cases refusal <;> exact preparedFor_error _ _ _
  · apply Returns.after
    intro bundle
    constructor
    · intro state same
      cases same
      rfl
    · intro remoteRef same
      cases same
    · intro remoteRef same
      cases same

theorem issues_forceRefused
    (permits : Permits bucketPrefix refName engine allowed)
    (state : PushReadyState) :
    Issues Call.Credible allowed (forceRefused bucketPrefix state) := by
  unfold forceRefused
  split
  · exact (issues_isProtected permits.reads _ _).mapError
  · trivial

/-- The prior bundle was listed under the reference. -/
theorem issues_supersedePrior
    {ε : Type}
    (permits : Permits bucketPrefix refName engine allowed)
    (sweeps : Sweeps bucketPrefix refName allowed)
    {state : PushReadyState}
    (same : state.remoteRef = refName)
    (currentKey : Option Text)
    (listed :
      ∀ key, currentKey = some key →
        refListingPrefix bucketPrefix refName <+: key) :
    Issues Call.Credible allowed
      (supersedePrior bucketPrefix state currentKey : Program ε Unit) := by
  subst same
  cases currentKey with
  | none => trivial
  | some prior =>
      have dropping :
          Issues Call.Credible allowed
            (deletePriorBundleBestEffort prior : Program ε Unit) := by
        unfold deletePriorBundleBestEffort
        apply Issues.bind
        · apply Issues.attempt
          exact issues_deleteIdempotent (sweeps _ (listed prior rfl))
        · intro _
          trivial
      unfold supersedePrior
      simp only
      split
      · unfold deferPriorBundleViaTombstone
        split
        · exact dropping
        · apply
            (issues_writeBaselineTombstoneBestEffort permits.reads _ _ _ _
              permits.put_tombstone).bind
          intro wrote
          split
          · trivial
          · exact dropping
      · trivial

theorem issues_uploadArchive
    {ε : Type}
    (permits : Permits bucketPrefix refName .bundle allowed)
    {state : PushReadyState}
    (same : state.remoteRef = refName) :
    Issues Call.Credible allowed
      (uploadArchive bucketPrefix state : Program ε Unit) := by
  subst same
  unfold uploadArchive uploadZipArtifactBestEffort
  rw [archiveKey_eq]
  split
  · trivial
  · apply Issues.bind
    · apply Issues.attempt
      apply issues_request
      · apply permits.put
        exact ⟨rfl, rfl⟩
      · simp
    · intro _
      trivial

theorem issues_commitPush
    {state : PushReadyState}
    (permits :
      Permits bucketPrefix state.remoteRef .bundle allowed)
    (sweeps : Sweeps bucketPrefix state.remoteRef allowed)
    (currentKey : Option Text)
    (listed :
      ∀ key, currentKey = some key →
        refListingPrefix bucketPrefix state.remoteRef <+: key) :
    Issues Call.Credible allowed
      (commitPush bucketPrefix state currentKey) := by
  unfold commitPush
  rw [bundleKey_eq, headKey_eq, formatKey_eq]
  apply Issues.bind
  · apply Issues.mapError
    apply issues_request
    · apply permits.put
      rfl
    · simp
  intro _
  apply Issues.bind
  · apply Issues.mapError
    apply issues_request permits.head
    simp
  intro _
  apply Issues.bind
  · apply Issues.mapError
    apply issues_request permits.format
    simp
  intro _
  apply (issues_supersedePrior permits sweeps rfl _ listed).bind
  intro _
  apply (issues_uploadArchive permits rfl).bind
  intro _
  trivial

theorem issues_deleteRemoteRefUnderLock
    (permits : Permits bucketPrefix refName engine allowed)
    (sweeps : Sweeps bucketPrefix refName allowed) :
    Issues Call.Credible allowed
      (deleteRemoteRefUnderLock bucketPrefix refName) := by
  unfold deleteRemoteRefUnderLock
  apply issues_list_bind (permits.reads (.list _) trivial)
  intro entries begins
  split
  · trivial
  simp only
  split
  · trivial
  · apply Issues.bind
    · apply Issues.mapError
      apply issues_forEach
      intro entry member
      apply issues_deleteIdempotent
      exact sweeps _ (begins entry (List.mem_filter.1 member).1)
    · intro _
      apply
        (issues_verifyNoOrphanProtectedAfterDelete permits.reads _ _).bind
      intro _
      trivial
  · trivial

/-- The locked section of a push. -/
theorem issues_performPushUnderLock
    (permits : Permits bucketPrefix refName .bundle allowed)
    (sweeps : Sweeps bucketPrefix refName allowed)
    {state : PushReadyState}
    (same : state.remoteRef = refName) :
    Issues Call.Credible allowed
      (performPushUnderLock bucketPrefix state) := by
  subst same
  unfold performPushUnderLock
  apply (issues_forceRefused permits state).bind
  intro refused
  split
  · trivial
  have listing :
      Returns Call.Credible
        (fun entries =>
          ∀ entry ∈ entries,
            refListingPrefix bucketPrefix state.remoteRef <+: entry.key)
        ((bundlesForRef bucketPrefix state.remoteRef
          state.hiddenBundles).mapError PushError.store) :=
    (returns_bundlesForRef _).mapError
  apply
    (issues_bundlesForRef permits _).mapError.bindReturns listing
  intro current listed
  split
  · trivial
  simp only
  split
  · trivial
  have first :
      ∀ key, current.head?.map ObjectMeta.key = some key →
        refListingPrefix bucketPrefix state.remoteRef <+: key := by
    intro key found
    rcases Option.map_eq_some_iff.1 found with ⟨entry, head, rfl⟩
    exact listed entry (List.mem_of_mem_head? head)
  exact issues_commitPush permits sweeps _ first

/-- A push of something. -/
theorem issues_pushOne
    (permits : Permits bucketPrefix refName .bundle allowed)
    (sweeps : Sweeps bucketPrefix refName allowed)
    (repo : LocalRepo)
    (zip : Bool)
    (ttl now : Int)
    (force : Bool)
    (localSpec : Text) :
    Issues Call.Credible allowed
      (pushOne bucketPrefix repo zip ttl now
        ⟨force, localSpec, refName⟩) := by
  unfold pushOne
  apply
    (issues_preparePush permits repo zip force localSpec).bindReturns
      (returns_preparePush repo zip _)
  intro prepared same
  cases prepared with
  | done outcome => trivial
  | ready state =>
      have own := same.ready state rfl
      simp only at own ⊢
      rw [own]
      exact
        permits.issues_underRefLock
          (issues_performPushUnderLock permits sweeps own) ttl now _
  | delete remoteRef =>
      have own := (same.delete remoteRef rfl).1
      simp only at own ⊢
      rw [own]
      exact
        permits.issues_underRefLock
          (issues_deleteRemoteRefUnderLock permits sweeps) ttl now _

end Bundle

/-! ## Deleting a branch -/

theorem issues_deleteBranchUnderLock
    (permits : Permits bucketPrefix refName engine allowed)
    (sweeps : Sweeps bucketPrefix refName allowed) :
    Issues Call.Credible allowed
      (deleteBranchUnderLock bucketPrefix refName) := by
  unfold deleteBranchUnderLock
  apply issues_list_bind (permits.reads (.list _) trivial)
  intro entries begins
  simp only
  split
  · trivial
  split
  · trivial
  apply
    (issues_tryWriteBaselineTombstone permits.reads _ _ _
      permits.put_tombstone).bind
  intro deferred
  apply Issues.bind
  · apply issues_foldEach
    intro undeleted entry member
    split
    · trivial
    · apply issues_request
      · exact sweeps _ (begins entry (List.mem_filter.1 member).1)
      · intro reply
        rcases reply with error | gone
        · cases error <;> trivial
        · trivial
  · intro undeleted
    split
    · apply
        (issues_verifyNoOrphanProtectedAfterDelete permits.reads _ _).bind
      intro _
      trivial
    · trivial

theorem issues_deleteBranch
    (permits : Permits bucketPrefix refName engine allowed)
    (sweeps : Sweeps bucketPrefix refName allowed)
    (confirmed : Bool)
    (ttl : Int) :
    Issues Call.Credible allowed
      (deleteBranch bucketPrefix refName confirmed ttl) := by
  have listing :
      Issues Call.Credible allowed
        ((Store.list
          (refListingPrefix bucketPrefix refName)).mapError
            ManageError.store) := by
    apply Issues.mapError
    apply issues_request (permits.reads (.list _) trivial)
    simp
  unfold deleteBranch
  apply listing.bind
  intro opened
  split
  · trivial
  apply listing.bind
  intro initial
  split
  · trivial
  split
  · trivial
  apply issues_request (permits.reads .nowUtc trivial)
  intro now
  apply
    (permits.issues_holdingLock
      (issues_deleteBranchUnderLock permits sweeps) ttl
      now).mapError.bind
  intro ended
  rcases ended with _ | ⟨_ | _, _⟩ <;> trivial

end GitRemoteObjectStore
