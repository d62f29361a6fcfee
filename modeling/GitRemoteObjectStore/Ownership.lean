import GitRemoteObjectStore.Library.Authority
import GitRemoteObjectStore.Library.Faults
import GitRemoteObjectStore.Footprint
import GitRemoteObjectStore.Protection
import GitRemoteObjectStore.SweepConfluence
import GitRemoteObjectStore.SweepEffects

/-!
# Who changes what

Clients of both engines, the management commands and the collector work on
one bucket, interleaved at single store calls, each taking and releasing its
locks by itself.  Calls may fail, with or without effect, and a client may
stop for good.  Every object has its owners: whatever changes it is a call of
a command that may write, create or remove its slot.  `FORMAT` and `HEAD` are
never changed once they are there, and a protection marker is removed by
nothing but an `unprotect` of its own reference.
-/

namespace GitRemoteObjectStore.Ownership

open CallProgram Prog

section Commands

variable [Platform]

/-- The commands; a push of nothing deletes its reference. -/
inductive Command where
  | packchainPush (repo : LocalRepo) (spec : PushSpec) (ttl now : Int)
  | bundlePush
      (repo : LocalRepo)
      (zip : Bool)
      (spec : PushSpec)
      (ttl now : Int)
  | compact
      (scratch : Packchain.Scratch)
      (refName : RefName)
      (force : Bool)
      (ttl : Int)
  | deleteBranch (refName : RefName) (confirmed : Bool) (ttl : Int)
  | protect (refName : RefName) (ttl : Int)
  | unprotect (refName : RefName) (ttl : Int)
  | mark (completion : Arrivals.Completion) (dryRun : Bool)
  | sweep (scans : Scans) (opts : SweepOpts)

/-- What is left of an outcome: whether there was an error. -/
def settled {ε α : Type} (program : Program ε α) :
    Program Unit (Option Empty) :=
  program.mapError (fun _ => ()) >>= fun _ => .done none

variable (bucketPrefix : Option Text)

/-- The whole run of a command, locking included. -/
def program : Command → Program Unit (Option Empty)
  | .packchainPush repo spec ttl now =>
      settled (Packchain.pushOne bucketPrefix repo ttl now spec)
  | .bundlePush repo zip spec ttl now =>
      settled (Bundle.pushOne bucketPrefix repo zip ttl now spec)
  | .compact scratch refName force ttl =>
      settled (Packchain.compact bucketPrefix scratch refName force ttl)
  | .deleteBranch refName confirmed ttl =>
      settled (deleteBranch bucketPrefix refName confirmed ttl)
  | .protect refName ttl => settled (protect bucketPrefix refName ttl)
  | .unprotect refName ttl => settled (unprotect bucketPrefix refName ttl)
  | .mark completion dryRun =>
      settled (mark completion (prefixText bucketPrefix) dryRun)
  | .sweep scans opts =>
      settled (sweep scans (prefixText bucketPrefix) opts)

/-- Clients running commands on one bucket, some of whose calls fail. -/
def clients (plan : FaultPlan Call ObjectStoreError) (ι : Type) :
    System ι Command Call Reply Unit Empty (World × Nat) where
  handler := fun _ => faulty answer failed plan
  begin := fun _ state => state
  elapse := fun duration state => (state.1.wait duration, state.2)
  prepare := program bucketPrefix
  work := Empty.elim

/-! ## Rights -/

/-- The reference a command locks. -/
def Command.locks? : Command → Option RefName
  | .packchainPush _ spec _ _ => some spec.remoteRef
  | .bundlePush _ _ spec _ _ => some spec.remoteRef
  | .compact _ refName _ _ => some refName
  | .deleteBranch refName _ _ => some refName
  | .protect refName _ => some refName
  | .unprotect refName _ => some refName
  | .mark .. => none
  | .sweep .. => none

/-- The slots a command overwrites. -/
def Command.Writes : Command → Slot → Prop
  | .packchainPush _ spec _ _, slot =>
      slot.WrittenBy .packchain spec.remoteRef ∧
        (spec.localSpec = [] → ∃ runId, slot = .baselineTombstone runId)
  | .bundlePush _ _ spec _ _, slot =>
      slot.WrittenBy .bundle spec.remoteRef ∧ spec.localSpec ≠ []
  | .compact _ refName _ _, slot => slot.WrittenBy .packchain refName
  | .deleteBranch _ _ _, slot => ∃ runId, slot = .baselineTombstone runId
  | .protect refName _, slot => slot = .ref refName .protectedMarker
  | .unprotect _ _, _ => False
  | .mark .., slot => ∃ label, slot = .tombstone label
  | .sweep .., _ => False

/-- The slots a command fills if they are empty. -/
def Command.Creates (command : Command) (slot : Slot) : Prop :=
  (∃ refName, command.locks? = some refName ∧ slot = .ref refName .lock) ∨
    (slot = .head ∨ slot = .format) ∧
      match command with
      | .packchainPush _ spec _ _ => spec.localSpec ≠ []
      | .bundlePush _ _ spec _ _ => spec.localSpec ≠ []
      | _ => False

/-- What a deletion sweeps: everything below a reference but the markers. -/
def SweptUnder (refName : RefName) (slot : Slot) : Prop :=
  slot.Under refName ∧ ∀ other, slot ≠ .ref other .protectedMarker

/-- The slots a command empties, its lock apart. -/
def Command.Drops : Command → Slot → Prop
  | .packchainPush _ spec _ _, slot =>
      if spec.localSpec = [] then SweptUnder spec.remoteRef slot
      else slot = .ref spec.remoteRef .pathIndex
  | .bundlePush _ _ spec _ _, slot =>
      if spec.localSpec = [] then SweptUnder spec.remoteRef slot
      else
        slot.Under spec.remoteRef ∧
          ∃ refName sha, slot = .ref refName (.bundle sha)
  | .compact _ _ _ _, _ => False
  | .deleteBranch refName _ _, slot => SweptUnder refName slot
  | .protect _ _, _ => False
  | .unprotect refName _, slot => slot = .ref refName .protectedMarker
  | .mark .., _ => False
  | .sweep .., .pack _ => True
  | .sweep .., .idx _ => True
  | .sweep .., .tombstone _ => True
  | .sweep .., .baselineTombstone _ => True
  | .sweep .., .ref _ (.bundle _) => True
  | .sweep .., .ref refName .chain => lit "gc/" <+: refName.text
  | .sweep .., .ref refName .pathIndex => lit "gc/" <+: refName.text
  | .sweep .., _ => False

/-- The slots a command empties. -/
def Command.Removes (command : Command) (slot : Slot) : Prop :=
  command.Drops slot ∨
    ∃ refName, command.locks? = some refName ∧ slot = .ref refName .lock

/-- The calls a command may make by its rights. -/
def Command.Allows (command : Command) : Call → Prop
  | .put key _ =>
      ∀ slot : Slot, key = slot.key bucketPrefix → command.Writes slot
  | .putIfAbsent key _ =>
      ∀ slot : Slot, key = slot.key bucketPrefix → command.Creates slot
  | .delete key =>
      ∀ slot : Slot, key = slot.key bucketPrefix → command.Removes slot
  | _ => True

end Commands

/-! ## Deletions spare the markers -/

section Deletions

variable
    [Platform]
    {bucketPrefix : Option Text}
    {refName : RefName}
    {allowed : Call → Prop}

/-- A key that is no protection marker's. -/
def Unmarked (bucketPrefix : Option Text) (key : Text) : Prop :=
  ∀ refName, key ≠ protectedMarkerKey bucketPrefix refName

theorem unmarked_of_listing
    {entries : List ObjectMeta}
    (unprotected : ¬ entriesHaveProtectedMarker entries = true)
    {entry : ObjectMeta}
    (member : entry ∈ entries) :
    Unmarked bucketPrefix entry.key := by
  intro refName marker
  exact unprotected (entriesHaveProtectedMarker_of_mem member marker)

variable
    (reads : ∀ request : Call, request.Reads → allowed request)
    (tombstones :
      ∀ runId record,
        allowed
          (.put (baselineTombstoneKey (prefixText bucketPrefix) runId)
            (.baselineTombstone record)))
    (sweeps :
      ∀ key,
        refListingPrefix bucketPrefix refName <+: key →
          Unmarked bucketPrefix key → allowed (.delete key))

include reads

section Sweeping

include sweeps

include tombstones in
theorem issues_deleteUnderLock :
    Issues Call.Credible allowed
      (Packchain.deleteUnderLock bucketPrefix refName) := by
  unfold Packchain.deleteUnderLock
  apply issues_request (reads (.head _) trivial)
  intro reply
  rcases reply with error | found
  · cases error <;> trivial
  apply issues_list_bind (reads (.list _) trivial)
  intro entries begins
  split
  · trivial
  next unprotected =>
      apply
        (issues_tryWriteBaselineTombstone reads _ _ _ tombstones).bind
      intro deferred
      apply Issues.bind
      · apply Issues.mapError
        apply issues_forEach
        intro entry member
        split
        · trivial
        split
        · trivial
        · apply issues_deleteIdempotent
          exact
            sweeps _ (begins entry member)
              (unmarked_of_listing unprotected member)
      · intro _
        apply
          (issues_verifyNoOrphanProtectedAfterDelete reads _ _).bind
        intro _
        trivial

theorem issues_deleteRemoteRefUnderLock :
    Issues Call.Credible allowed
      (Bundle.deleteRemoteRefUnderLock bucketPrefix refName) := by
  unfold Bundle.deleteRemoteRefUnderLock
  apply issues_list_bind (reads (.list _) trivial)
  intro entries begins
  split
  · trivial
  next unprotected =>
  simp only
  split
  · trivial
  · apply Issues.bind
    · apply Issues.mapError
      apply issues_forEach
      intro entry member
      have listed := (List.mem_filter.1 member).1
      apply issues_deleteIdempotent
      exact
        sweeps _ (begins entry listed)
          (unmarked_of_listing unprotected listed)
    · intro _
      apply
        (issues_verifyNoOrphanProtectedAfterDelete reads _ _).bind
      intro _
      trivial
  · trivial

include tombstones in
theorem issues_deleteBranchUnderLock :
    Issues Call.Credible allowed
      (deleteBranchUnderLock bucketPrefix refName) := by
  unfold deleteBranchUnderLock
  apply issues_list_bind (reads (.list _) trivial)
  intro entries begins
  simp only
  split
  · trivial
  split
  · trivial
  next unprotected =>
  apply (issues_tryWriteBaselineTombstone reads _ _ _ tombstones).bind
  intro deferred
  apply Issues.bind
  · apply issues_foldEach
    intro undeleted entry member
    split
    · trivial
    · apply issues_request
      · exact
          sweeps _ (begins entry (List.mem_filter.1 member).1)
            (unmarked_of_listing unprotected member)
      · intro reply
        rcases reply with error | gone
        · cases error <;> trivial
        · trivial
  · intro undeleted
    split
    · apply
        (issues_verifyNoOrphanProtectedAfterDelete reads _ _).bind
      intro _
      trivial
    · trivial

end Sweeping

end Deletions

/-! ## A bundle push drops bundles only -/

section Bundles

variable
    [Platform]
    {bucketPrefix : Option Text}
    {refName : RefName}
    {allowed : Call → Prop}

/-- What is visible was listed under its reference, and is a bundle. -/
theorem returns_bundlesForRef (hidden : List Text) :
    Returns Call.Credible
      (fun entries =>
        ∀ entry ∈ entries,
          refListingPrefix bucketPrefix refName <+: entry.key ∧
            isBundleCandidate entry.key = true)
      (Bundle.bundlesForRef bucketPrefix refName hidden) := by
  intro reply credible
  cases reply with
  | error error => trivial
  | ok metas =>
      intro entry member
      have bundles := List.mem_filter.1 (List.mem_filter.1 member).1
      exact ⟨credible entry bundles.1, bundles.2⟩

variable
    (permits : Permits bucketPrefix refName .bundle allowed)
    (drops :
      ∀ key,
        refListingPrefix bucketPrefix refName <+: key →
          isBundleCandidate key = true → allowed (.delete key))

include permits

theorem issues_supersedePrior
    {ε : Type}
    {state : Bundle.PushReadyState}
    {currentKey : Option Text}
    (dropping :
      ∀ key, currentKey = some key → allowed (.delete key)) :
    Issues Call.Credible allowed
      (Bundle.supersedePrior bucketPrefix state currentKey :
        Program ε Unit) := by
  cases currentKey with
  | none => trivial
  | some prior =>
      have deleting :
          Issues Call.Credible allowed
            (Bundle.deletePriorBundleBestEffort prior :
              Program ε Unit) := by
        unfold Bundle.deletePriorBundleBestEffort
        apply Issues.bind
        · apply Issues.attempt
          exact issues_deleteIdempotent (dropping prior rfl)
        · intro _
          trivial
      unfold Bundle.supersedePrior
      simp only
      split
      · unfold Bundle.deferPriorBundleViaTombstone
        split
        · exact deleting
        · apply
            (issues_writeBaselineTombstoneBestEffort permits.reads _ _ _ _
              permits.put_tombstone).bind
          intro wrote
          split
          · trivial
          · exact deleting
      · trivial

theorem issues_commitPush
    {state : Bundle.PushReadyState}
    (own : state.remoteRef = refName)
    {currentKey : Option Text}
    (dropping :
      ∀ key, currentKey = some key → allowed (.delete key)) :
    Issues Call.Credible allowed
      (Bundle.commitPush bucketPrefix state currentKey) := by
  subst own
  have creating
      {slot : Slot}
      {body : Body}
      (allows : allowed (.putIfAbsent (slot.key bucketPrefix) body)) :
      Issues Call.Credible allowed
        ((Store.putIfAbsent (slot.key bucketPrefix) body).mapError
          PushError.store) := by
    apply Issues.mapError
    apply issues_request allows
    simp
  unfold Bundle.commitPush
  rw [bundleKey_eq, headKey_eq, formatKey_eq]
  apply Issues.bind
  · apply Issues.mapError
    apply issues_request
    · apply permits.put
      rfl
    · simp
  intro _
  apply (creating permits.head).bind
  intro _
  apply (creating permits.format).bind
  intro _
  apply (issues_supersedePrior permits dropping).bind
  intro _
  apply (Bundle.issues_uploadArchive permits rfl).bind
  intro _
  trivial

include drops

theorem issues_performPushUnderLock
    {state : Bundle.PushReadyState}
    (own : state.remoteRef = refName) :
    Issues Call.Credible allowed
      (Bundle.performPushUnderLock bucketPrefix state) := by
  subst own
  unfold Bundle.performPushUnderLock
  apply (Bundle.issues_forceRefused permits state).bind
  intro refused
  split
  · trivial
  apply
    (Bundle.issues_bundlesForRef permits _).mapError.bindReturns
      (returns_bundlesForRef _).mapError
  intro current listed
  split
  · trivial
  simp only
  split
  · trivial
  apply issues_commitPush permits rfl
  intro key found
  rcases Option.map_eq_some_iff.1 found with ⟨entry, head, rfl⟩
  have bundle := listed entry (List.mem_of_mem_head? head)
  exact drops _ bundle.1 bundle.2

/-- A bundle push of something. -/
theorem issues_bundlePush
    (repo : LocalRepo)
    (zip : Bool)
    (ttl now : Int)
    (force : Bool)
    {localSpec : Text}
    (named : localSpec ≠ []) :
    Issues Call.Credible allowed
      (Bundle.pushOne bucketPrefix repo zip ttl now
        ⟨force, localSpec, refName⟩) := by
  unfold Bundle.pushOne
  apply
    (Bundle.issues_preparePush permits repo zip force
        localSpec).bindReturns
      (Bundle.returns_preparePush repo zip _)
  intro prepared found
  cases prepared with
  | done outcome => trivial
  | ready state =>
      have own := found.ready state rfl
      simp only at own ⊢
      rw [own]
      exact
        permits.issues_underRefLock
          (issues_performPushUnderLock permits drops own) ttl now _
  | delete remoteRef =>
      exact absurd (found.delete remoteRef rfl).2 named

end Bundles

/-! ## Every command keeps to its rights -/

section Rights

variable
    [Platform]
    {bucketPrefix : Option Text}

theorem allows_reads
    {command : Command}
    (request : Call)
    (reads : request.Reads) :
    command.Allows bucketPrefix request := by
  cases request with
  | put key body => exact reads.elim
  | putIfAbsent key body => exact reads.elim
  | delete key => exact reads.elim
  | _ => trivial

theorem allows_put
    {command : Command}
    {slot : Slot}
    (writes : command.Writes slot)
    (body : Body) :
    command.Allows bucketPrefix (.put (slot.key bucketPrefix) body) := by
  intro other same
  obtain rfl := (Slot.key_inj _).1 same
  exact writes

theorem allows_create
    {command : Command}
    {slot : Slot}
    (creates : command.Creates slot)
    (body : Body) :
    command.Allows bucketPrefix
      (.putIfAbsent (slot.key bucketPrefix) body) := by
  intro other same
  obtain rfl := (Slot.key_inj _).1 same
  exact creates

theorem allows_delete
    {command : Command}
    {slot : Slot}
    (removes : command.Removes slot) :
    command.Allows bucketPrefix (.delete (slot.key bucketPrefix)) := by
  intro other same
  obtain rfl := (Slot.key_inj _).1 same
  exact removes

theorem allows_tombstone
    {command : Command}
    (writes : ∀ runId, command.Writes (.baselineTombstone runId))
    (runId : Component)
    (record : BaselineTombstone) :
    command.Allows bucketPrefix
      (.put (baselineTombstoneKey (prefixText bucketPrefix) runId)
        (.baselineTombstone record)) := by
  rw [baselineTombstoneKey_eq]
  exact allows_put (writes runId) _

/-- A command takes and releases the lock of its reference. -/
theorem locks_allows
    {command : Command}
    {refName : RefName}
    (own : command.locks? = some refName) :
    Locks bucketPrefix refName (command.Allows bucketPrefix) where
  reads := allows_reads
  lock := allows_create (Or.inl ⟨refName, own, rfl⟩) _
  unlock := allows_delete (Or.inr ⟨refName, own, rfl⟩)

/-- A deletion may delete what it has listed, the markers apart. -/
theorem allows_swept
    {command : Command}
    {refName : RefName}
    (drops : ∀ slot, SweptUnder refName slot → command.Drops slot)
    {key : Text}
    (begins : refListingPrefix bucketPrefix refName <+: key)
    (unmarked : Unmarked bucketPrefix key) :
    command.Allows bucketPrefix (.delete key) := by
  rintro slot rfl
  left
  apply drops
  constructor
  · exact refListingPrefix_prefix_iff.1 begins
  · rintro other rfl
    exact unmarked other (protectedMarkerKey_eq _ _).symm

theorem issues_packchainPush
    (repo : LocalRepo)
    (spec : PushSpec)
    (ttl now : Int) :
    Issues Call.Credible
      ((Command.packchainPush repo spec ttl now).Allows bucketPrefix)
      (Packchain.pushOne bucketPrefix repo ttl now spec) := by
  rcases spec with ⟨force, localSpec, refName⟩
  have locks :
      Locks bucketPrefix refName
        ((Command.packchainPush repo ⟨force, localSpec, refName⟩ ttl
          now).Allows bucketPrefix) :=
    locks_allows rfl
  by_cases named : localSpec ≠ []
  · apply Packchain.issues_pushOne _ repo ttl now force named
    exact
      { toLocks := locks
        put := by
          intro slot body written
          apply allows_put
          exact ⟨written, fun empty => absurd empty named⟩
        drop := fun _ => allows_delete (Or.inl (by
          simp [Command.Drops, named]))
        head := allows_create (Or.inr ⟨Or.inl rfl, named⟩) _
        format := allows_create (Or.inr ⟨Or.inr rfl, named⟩) _ }
  · unfold Packchain.pushOne
    rw [if_pos (not_not.1 named)]
    apply locks.issues_underRefLock
    apply issues_deleteUnderLock locks.reads
    · exact allows_tombstone fun runId => ⟨trivial, fun _ => ⟨runId, rfl⟩⟩
    · intro key begins unmarked
      apply allows_swept _ begins unmarked
      intro slot swept
      simpa [Command.Drops, not_not.1 named] using swept

theorem issues_bundlePushes
    (repo : LocalRepo)
    (zip : Bool)
    (spec : PushSpec)
    (ttl now : Int) :
    Issues Call.Credible
      ((Command.bundlePush repo zip spec ttl now).Allows bucketPrefix)
      (Bundle.pushOne bucketPrefix repo zip ttl now spec) := by
  rcases spec with ⟨force, localSpec, refName⟩
  have locks :
      Locks bucketPrefix refName
        ((Command.bundlePush repo zip ⟨force, localSpec, refName⟩ ttl
          now).Allows bucketPrefix) :=
    locks_allows rfl
  by_cases named : localSpec ≠ []
  · have permits :
        Permits bucketPrefix refName .bundle
          ((Command.bundlePush repo zip ⟨force, localSpec, refName⟩ ttl
            now).Allows bucketPrefix) :=
      { toLocks := locks
        put := by
          intro slot body written
          apply allows_put
          exact ⟨written, named⟩
        drop := fun other => by cases other
        head := allows_create (Or.inr ⟨Or.inl rfl, named⟩) _
        format := allows_create (Or.inr ⟨Or.inr rfl, named⟩) _ }
    apply issues_bundlePush permits _ repo zip ttl now force named
    rintro key begins bundle slot rfl
    left
    simp only [Command.Drops, if_neg named]
    refine ⟨refListingPrefix_prefix_iff.1 begins, ?_⟩
    rw [isBundleCandidate_slot] at bundle
    cases slot with
    | ref other entry =>
        cases entry with
        | bundle sha => exact ⟨other, sha, rfl⟩
        | _ => cases bundle
    | _ => cases bundle
  · have empty : localSpec = [] := not_not.1 named
    subst empty
    unfold Bundle.pushOne Bundle.preparePush
    rw [if_pos rfl]
    apply locks.issues_underRefLock
    apply issues_deleteRemoteRefUnderLock locks.reads
    intro key begins unmarked
    apply allows_swept _ begins unmarked
    intro slot swept
    simpa [Command.Drops] using swept

theorem issues_compactUnderLock
    {allowed : Call → Prop}
    {refName : RefName}
    (reads : ∀ request : Call, request.Reads → allowed request)
    (put :
      ∀ (slot : Slot) (body : Body),
        slot.WrittenBy .packchain refName →
          allowed (.put (slot.key bucketPrefix) body))
    (scratch : Packchain.Scratch) :
    Issues Call.Credible allowed
      (Packchain.compactUnderLock bucketPrefix scratch refName) := by
  have putting
      {slot : Slot}
      {body : Body}
      (written : slot.WrittenBy .packchain refName) :
      Issues Call.Credible allowed
        ((Store.putBytes (slot.key bucketPrefix) body).mapError
          PackchainError.store) := by
    apply Issues.mapError
    apply issues_request (put _ _ written)
    simp
  unfold Packchain.compactUnderLock
  apply (issues_loadChain reads _ _).bind
  intro found
  cases found with
  | none => trivial
  | some chain =>
      apply (Packchain.issues_downloadChainArtefacts reads _ _ _ _).bind
      intro directory
      apply (issues_ofExcept _).bind
      intro built
      unfold Packchain.commitCompaction
      simp only [packKey_eq, packIdxKey_eq, bundleKey_eq]
      apply Issues.bind
      · exact putting rfl
      intro _
      apply Issues.bind
      · exact putting rfl
      intro _
      apply Issues.bind
      · exact putting rfl
      intro _
      unfold writeChain
      rw [chainKey_eq]
      apply Issues.bind
      · exact putting ⟨rfl, rfl⟩
      intro _
      apply Issues.bind
      · unfold Packchain.writePathIndexIfAny writePathIndex
        rw [pathIndexKey_eq]
        cases built.2.1 with
        | none => trivial
        | some index => exact putting ⟨rfl, rfl⟩
      intro _
      have tombstones (runId : Component) (record : BaselineTombstone) :
          allowed
            (.put (baselineTombstoneKey (prefixText bucketPrefix) runId)
              (.baselineTombstone record)) := by
        rw [baselineTombstoneKey_eq]
        exact put _ _ trivial
      apply
        (issues_writeBaselineTombstoneBestEffort reads _ _ _ _
          tombstones).bind
      intro _
      trivial

theorem issues_compact
    (scratch : Packchain.Scratch)
    (refName : RefName)
    (force : Bool)
    (ttl : Int) :
    Issues Call.Credible
      ((Command.compact scratch refName force ttl).Allows bucketPrefix)
      (Packchain.compact bucketPrefix scratch refName force ttl) := by
  have locks :
      Locks bucketPrefix refName
        ((Command.compact scratch refName force ttl).Allows
          bucketPrefix) :=
    locks_allows rfl
  have working :=
    issues_compactUnderLock locks.reads
      (fun slot body written => by
        apply allows_put
        exact written)
      scratch
  unfold Packchain.compact
  apply (issues_loadChain locks.reads _ _).bind
  intro found
  cases found with
  | none => trivial
  | some prior =>
      simp only
      split
      · trivial
      apply issues_request (locks.reads .nowUtc trivial)
      intro now
      apply (locks.issues_holdingLock working ttl now).mapError.bind
      intro ended
      rcases ended with _ | ⟨_ | _, _⟩ <;> trivial

theorem issues_deleteBranch
    (refName : RefName)
    (confirmed : Bool)
    (ttl : Int) :
    Issues Call.Credible
      ((Command.deleteBranch refName confirmed ttl).Allows bucketPrefix)
      (deleteBranch bucketPrefix refName confirmed ttl) := by
  have locks :
      Locks bucketPrefix refName
        ((Command.deleteBranch refName confirmed ttl).Allows
          bucketPrefix) :=
    locks_allows rfl
  have working :
      Issues Call.Credible
        ((Command.deleteBranch refName confirmed ttl).Allows bucketPrefix)
        (deleteBranchUnderLock bucketPrefix refName) := by
    apply issues_deleteBranchUnderLock locks.reads
    · exact allows_tombstone fun runId => ⟨runId, rfl⟩
    · intro key begins unmarked
      apply allows_swept _ begins unmarked
      exact fun slot swept => swept
  unfold deleteBranch
  apply issues_list_bind (locks.reads (.list _) trivial)
  intro opened _
  split
  · trivial
  apply issues_list_bind (locks.reads (.list _) trivial)
  intro initial _
  split
  · trivial
  split
  · trivial
  apply issues_request (locks.reads .nowUtc trivial)
  intro now
  apply (locks.issues_holdingLock working ttl now).mapError.bind
  intro ended
  rcases ended with _ | ⟨_ | _, _⟩ <;> trivial

/-- Opening a branch, and work under its lock. -/
theorem issues_managed
    {command : Command}
    {refName : RefName}
    (own : command.locks? = some refName)
    (ttl : Int)
    {work : Program ManageError Unit}
    (working :
      Issues Call.Credible (command.Allows bucketPrefix) work) :
    Issues Call.Credible (command.Allows bucketPrefix)
      (openBranch bucketPrefix refName >>= fun _ =>
        withRefLock bucketPrefix refName ttl work) := by
  have locks : Locks bucketPrefix refName (command.Allows bucketPrefix) :=
    locks_allows own
  apply Issues.bind
  · apply issues_list_bind (locks.reads (.list _) trivial)
    intro opened _
    split <;> trivial
  intro _
  apply issues_request (locks.reads .nowUtc trivial)
  intro now
  apply (locks.issues_holdingLock working ttl now).mapError.bind
  intro ended
  cases ended with
  | none => trivial
  | some ended => exact issues_ofExcept _

theorem issues_protect (refName : RefName) (ttl : Int) :
    Issues Call.Credible
      ((Command.protect refName ttl).Allows bucketPrefix)
      (protect bucketPrefix refName ttl) := by
  apply issues_managed rfl
  apply issues_list_bind (allows_reads (.list _) trivial)
  intro fresh _
  split
  · trivial
  · apply Issues.mapError
    rw [protectedMarkerKey_eq]
    apply issues_request
    · apply allows_put
      rfl
    · simp

theorem issues_unprotect (refName : RefName) (ttl : Int) :
    Issues Call.Credible
      ((Command.unprotect refName ttl).Allows bucketPrefix)
      (unprotect bucketPrefix refName ttl) := by
  apply issues_managed rfl
  unfold unprotectUnderLock
  rw [protectedMarkerKey_eq]
  have removes :
      (Command.unprotect refName ttl).Removes
        (.ref refName .protectedMarker) :=
    Or.inl rfl
  apply issues_request (allows_delete removes)
  intro reply
  rcases reply with error | gone
  · cases error <;> trivial
  · trivial

theorem issues_marking
    (completion : Arrivals.Completion)
    (dryRun : Bool) :
    Issues Call.Credible
      ((Command.mark completion dryRun).Allows bucketPrefix)
      (mark completion (prefixText bucketPrefix) dryRun) := by
  apply issues_mark allows_reads
  intro runId markedAt record
  rw [tombstoneKey_eq]
  apply allows_put
  exact ⟨_, rfl⟩

/-- A sweep deletes what its tombstones name, and them. -/
theorem issues_sweep_json
    {allowed : Call → Prop}
    {text : Text}
    (reads : ∀ request : Call, request.Reads → allowed request)
    (packs :
      ∀ sha,
        allowed (.delete (packKey (some text) sha)) ∧
          allowed (.delete (packIdxKey (some text) sha)))
    (bundles :
      ∀ refName sha,
        allowed (.delete (bundleKey (prefixOpt text) refName sha)))
    (tombstones :
      ∀ key,
        gcListingPrefix text <+: key → lit ".json" <:+ key →
          allowed (.delete key))
    (scans : Scans)
    (opts : SweepOpts) :
    Issues Call.Credible allowed (sweep scans text opts) := by
  apply issues_list_bind (reads (.list _) trivial)
  intro entries begins
  apply issues_foldEach
  intro outcome entry member
  unfold sweepEntry
  split
  · trivial
  next json =>
  have own := tombstones _ (begins entry member) (not_not.1 json)
  split
  · apply (issues_sweepOneTombstone reads packs own).attempt.bind
    intro step
    trivial
  split
  · apply (issues_sweepOneBaselineTombstone reads bundles own).attempt.bind
    intro step
    trivial
  · trivial

/-- Under `gc/` there are tombstones, and references named so. -/
theorem removes_of_gc
    {scans : Scans}
    {opts : SweepOpts}
    {slot : Slot}
    (inGc :
      gcListingPrefix (prefixText bucketPrefix) <+:
        slot.key bucketPrefix)
    (json : lit ".json" <:+ slot.key bucketPrefix) :
    (Command.sweep scans opts).Removes slot := by
  left
  have split : lit "gc/" = lit "gc" ++ ['/'] := by decide +kernel
  rw [gcListingPrefix, join_some_prefixText, join_eq,
    keyRoot_append_prefix_iff, split, Slot.prefix_path_iff] at inGc
  rcases inGc with ⟨front, found, under⟩
  have last := SweepConfluence.getLast?_of_json json
  rw [Slot.key, Slot.path] at last
  cases slot with
  | ref refName entry =>
      cases found
      have inside : lit "gc/" <+: refName.text := by
        rcases under with same | inside
        · exact absurd same.symm refName.ne_gc
        · rw [split]
          exact inside
      cases entry with
      | bundle sha => trivial
      | chain => exact inside
      | pathIndex => exact inside
      | lock =>
          simp [Slot.directory, Slot.name, Entry.name, lit_eq,
            List.getLast?_cons] at last
      | protectedMarker =>
          simp [Slot.directory, Slot.name, Entry.name, lit_eq,
            List.getLast?_cons] at last
      | archive =>
          simp [Slot.directory, Slot.name, Entry.name, lit_eq,
            List.getLast?_cons] at last
  | pack sha => trivial
  | idx sha => trivial
  | tombstone label => trivial
  | baselineTombstone runId => trivial
  | head => cases found
  | format => cases found

theorem issues_sweeping (scans : Scans) (opts : SweepOpts) :
    Issues Call.Credible
      ((Command.sweep scans opts).Allows bucketPrefix)
      (sweep scans (prefixText bucketPrefix) opts) := by
  have dropping
      {slot : Slot}
      (drops : (Command.sweep scans opts).Drops slot) :
      (Command.sweep scans opts).Allows bucketPrefix
        (.delete (slot.key bucketPrefix)) :=
    allows_delete (Or.inl drops)
  apply issues_sweep_json allows_reads
  · intro sha
    rw [packKey, packIdxKey, join_some_prefixText, ← packKey,
      join_some_prefixText, ← packIdxKey, packKey_eq, packIdxKey_eq]
    exact ⟨dropping trivial, dropping trivial⟩
  · intro refName sha
    rw [SweepEffects.bundleKey_prefixOpt, bundleKey_eq]
    exact dropping trivial
  · rintro key inGc json slot rfl
    exact removes_of_gc inGc json

/-- Every command issues the calls it has the rights for. -/
theorem issues_program (command : Command) :
    Issues Call.Credible (command.Allows bucketPrefix)
      (program bucketPrefix command) := by
  have ending
      {ε α : Type}
      {program : Program ε α}
      (issues :
        Issues Call.Credible (command.Allows bucketPrefix) program) :
      Issues Call.Credible (command.Allows bucketPrefix)
        (settled program) := by
    apply issues.mapError.bind
    intro _
    trivial
  cases command with
  | packchainPush repo spec ttl now =>
      exact ending (issues_packchainPush repo spec ttl now)
  | bundlePush repo zip spec ttl now =>
      exact ending (issues_bundlePushes repo zip spec ttl now)
  | compact scratch refName force ttl =>
      exact ending (issues_compact scratch refName force ttl)
  | deleteBranch refName confirmed ttl =>
      exact ending (issues_deleteBranch refName confirmed ttl)
  | protect refName ttl => exact ending (issues_protect refName ttl)
  | unprotect refName ttl => exact ending (issues_unprotect refName ttl)
  | mark completion dryRun =>
      exact ending (issues_marking completion dryRun)
  | sweep scans opts => exact ending (issues_sweeping scans opts)

end Rights

/-! ## Every schedule -/

section Schedules

variable
    [Platform]
    {bucketPrefix : Option Text}
    {plan : FaultPlan Call ObjectStoreError}
    {ι : Type}
    [DecidableEq ι]

theorem credible_faulty
    (request : Call)
    (state : World × Nat) :
    request.Credible (faulty answer failed plan request state).1 := by
  rcases state with ⟨world, count⟩
  rcases @faulty_cases _ _ _ _ answer failed plan request world count with
    same | ⟨fault, reply, later, -, broke, -, same⟩
  · rw [same]
    exact credible_answer request world
  · rw [same]
    cases request <;> cases broke <;> trivial

omit [DecidableEq ι] in
theorem obeys_clients :
    (clients bucketPrefix plan ι).Obeys Call.Credible
      fun command => command.Allows bucketPrefix where
  honest := fun _ => credible_faulty
  prepare := issues_program
  work := fun _ task => task.elim

/-- A call under a plan leaves the bucket alone or has its effect. -/
theorem bucket_faulty
    (plan : FaultPlan Call ObjectStoreError)
    (request : Call)
    (state : World × Nat) :
    (faulty answer failed plan request state).2.1 = state.1 ∨
      (faulty answer failed plan request state).2.1 =
        (answer request state.1).2 := by
  rcases state with ⟨world, count⟩
  rcases @faulty_cases _ _ _ _ answer failed plan request world count with
    same | ⟨fault, reply, later, -, -, effect, same⟩
  · rw [same]
    exact Or.inr rfl
  · rw [same]
    exact effect

/-- What a call does to a slot, by the rights of its command. -/
theorem changed_slot
    {command : Command}
    {request : Call}
    (allows : command.Allows bucketPrefix request)
    {slot : Slot}
    {world : World}
    (changed :
      (answer request world).2.get? (slot.key bucketPrefix) ≠
        world.get? (slot.key bucketPrefix)) :
    (command.Writes slot ∧
        ((answer request world).2.get? (slot.key bucketPrefix)).isSome) ∨
      (command.Creates slot ∧
        world.get? (slot.key bucketPrefix) = none ∧
        ((answer request world).2.get? (slot.key bucketPrefix)).isSome) ∨
      (command.Removes slot ∧
        (answer request world).2.get? (slot.key bucketPrefix) = none) := by
  have touched : request.Writes (slot.key bucketPrefix) := by
    by_contra untouched
    exact changed (get?_answer_of_not_writes untouched world)
  cases request with
  | put key body =>
      left
      refine ⟨allows slot touched.symm, ?_⟩
      obtain rfl : slot.key bucketPrefix = key := touched
      simp [answer]
  | putIfAbsent key body =>
      right
      left
      obtain rfl : slot.key bucketPrefix = key := touched
      refine ⟨allows slot rfl, ?_⟩
      cases found : world.get? (slot.key bucketPrefix) with
      | none => simp [answer, found]
      | some object =>
          rw [answer, found] at changed
          exact absurd found changed
  | delete key =>
      right
      right
      obtain rfl : slot.key bucketPrefix = key := touched
      refine ⟨allows slot rfl, ?_⟩
      cases found : world.get? (slot.key bucketPrefix) with
      | none => simp [answer, found]
      | some object => simp [answer, found]
  | _ => exact touched.elim

/-- Any call at all. -/
def Any
    (_client : ι)
    (_command : Command)
    (_request : Call)
    (_state : World × Nat) : Prop :=
  True

/-- The slots that are filled once. -/
def FilledOnce (slot : Slot) : Prop :=
  slot = .head ∨ slot = .format

theorem not_writes_of_filledOnce
    {slot : Slot}
    (once : FilledOnce slot)
    (command : Command) :
    ¬ command.Writes slot ∧ ¬ command.Removes slot := by
  rcases once with rfl | rfl
  · cases command <;>
      simp [Command.Writes, Command.Removes, Command.Drops,
        Slot.WrittenBy, SweptUnder, Slot.Under, Command.locks?]
  · cases command <;>
      simp [Command.Writes, Command.Removes, Command.Drops,
        Slot.WrittenBy, SweptUnder, Slot.Under, Command.locks?]

/-- `HEAD` and `FORMAT` stay as they were first written. -/
theorem fixed_once_filled
    {start : World × Nat}
    {pool later : Pool ι Command Call Reply Unit Empty (World × Nat)}
    {slot : Slot}
    {object : Object}
    (reached :
      (clients bucketPrefix plan ι).Reaches
        (fun pool => pool.Meets Any) (.quiet start) pool)
    (once : FilledOnce slot)
    (filled : pool.state.1.get? (slot.key bucketPrefix) = some object)
    (more :
      (clients bucketPrefix plan ι).Reaches
        (fun pool => pool.Meets Any) pool later) :
    later.state.1.get? (slot.key bucketPrefix) = some object := by
  apply
    obeys_clients.lasts reached more fun state =>
      state.1.get? (slot.key bucketPrefix) = some object
  · exact fun _ _ held => held
  · exact fun _ _ held => held
  · intro client command request state _ allows held
    rcases bucket_faulty plan request state with same | effect
    · exact same ▸ held
    by_contra changed
    have other :
        (answer request state.1).2.get? (slot.key bucketPrefix) ≠
          state.1.get? (slot.key bucketPrefix) := by
      rw [held]
      intro same
      exact changed (by rw [← same, ← effect]; rfl)
    have rights := not_writes_of_filledOnce once command
    rcases changed_slot allows other with
      ⟨writes, -⟩ | ⟨-, empty, -⟩ | ⟨removes, -⟩
    · exact rights.1 writes
    · rw [held] at empty
      cases empty
    · exact rights.2 removes
  · exact filled

/-! ## Markers -/

variable (bucketPrefix) (refName : RefName)

/-- The protection marker is there. -/
def Marked (state : World × Nat) : Prop :=
  (state.1.get? (protectedMarkerKey bucketPrefix refName)).isSome

/-- Any call but those of an `unprotect` of the reference. -/
def Spares
    (_client : ι)
    (command : Command)
    (_request : Call)
    (_state : World × Nat) : Prop :=
  ∀ ttl, command ≠ .unprotect refName ttl

/-- The contract of a client whose others leave the marker where it is. -/
def guarding : Contract Call (World × Nat) where
  rely := fun state later =>
    Marked bucketPrefix refName state →
      Marked bucketPrefix refName later
  invariant := fun _ => True
  met := fun _ _ => True
  guarantee := fun _ _ => True
  rely_refl := fun _ => id
  rely_trans := fun _ _ _ first second => second ∘ first

variable {bucketPrefix refName}

omit [DecidableEq ι] in
theorem marked_call
    {command : Command}
    (spares : ∀ ttl, command ≠ .unprotect refName ttl)
    {request : Call}
    (allows : command.Allows bucketPrefix request)
    {state : World × Nat}
    (marked : Marked bucketPrefix refName state) :
    Marked bucketPrefix refName
      (faulty answer failed plan request state).2 := by
  unfold Marked at marked ⊢
  rw [protectedMarkerKey_eq] at marked ⊢
  rcases bucket_faulty plan request state with same | effect
  · rw [same]
    exact marked
  rw [effect]
  apply present_answer _ marked
  rintro rfl
  rcases allows _ rfl with drops | ⟨other, -, lock⟩
  · cases command with
    | packchainPush repo spec ttl now =>
        simp only [Command.Drops] at drops
        split at drops
        · exact drops.2 refName rfl
        · cases drops
    | bundlePush repo zip spec ttl now =>
        simp only [Command.Drops] at drops
        split at drops
        · exact drops.2 refName rfl
        · rcases drops.2 with ⟨other, sha, same⟩
          cases same
    | compact scratch other force ttl => exact drops
    | deleteBranch other confirmed ttl => exact drops.2 refName rfl
    | protect other ttl => exact drops
    | unprotect other ttl =>
        cases drops
        exact spares ttl rfl
    | mark dryRun => exact drops
    | sweep opts => exact drops
  · cases lock

omit [DecidableEq ι] in
/-- What a protecting client does keeps what stays true beside it. -/
theorem safe_beside
    {ε α : Type}
    {ttl : Int}
    {keeps : World × Nat → Prop}
    (stable :
      ∀ state later,
        (guarding bucketPrefix refName).rely state later →
          keeps state → keeps later)
    {program : Program ε α}
    (issues :
      Issues Call.Credible
        ((Command.protect refName ttl).Allows bucketPrefix) program)
    {state : World × Nat}
    (holds : keeps state) :
    Safe (guarding bucketPrefix refName) (faulty answer failed plan)
      (fun _ later => keeps later) program state := by
  apply issues.safe credible_faulty _ stable holds
  intro request state allows _ _ held
  have evolves :
      Marked bucketPrefix refName state →
        Marked bucketPrefix refName
          (faulty answer failed plan request state).2 :=
    marked_call (fun _ same => by cases same) allows
  exact ⟨⟨trivial, trivial⟩, stable _ _ evolves held⟩

/-- The work of a protection that succeeds has written the marker. -/
theorem safe_protectUnderLock (state : World × Nat) :
    Safe (guarding bucketPrefix refName) (faulty answer failed plan)
      (whenOk fun _ later => Marked bucketPrefix refName later)
      (protectUnderLock bucketPrefix refName) state := by
  unfold protectUnderLock
  apply Safe.keeping
  · apply @safe_beside _ _ plan refName _ _ 0 fun _ => True
    · exact fun _ _ _ _ => trivial
    · apply Issues.mapError
      apply issues_request trivial
      simp
    · trivial
  intro fresh read _ _
  split
  · exact safe_fail
  · apply Safe.convert
    intro before _ _ _
    refine ⟨⟨trivial, trivial⟩, ?_⟩
    rcases before with ⟨world, count⟩
    rcases
      @faulty_cases _ _ _ _ answer failed plan
        (.put (protectedMarkerKey bucketPrefix refName) (.text []))
        world count with
      same | ⟨fault, reply, other, -, broke, -, same⟩
    · rw [same]
      intro later stays _
      apply stays
      simp [Marked, answer]
    · rw [same]
      cases broke
      exact fun _ _ _ => trivial

/-- A protection that succeeds has written the marker. -/
theorem safe_protect (ttl : Int) (state : World × Nat) :
    Safe (guarding bucketPrefix refName) (faulty answer failed plan)
      (whenOk fun _ later => Marked bucketPrefix refName later)
      (program bucketPrefix (.protect refName ttl)) state := by
  have locks :
      Locks bucketPrefix refName
        ((Command.protect refName ttl).Allows bucketPrefix) :=
    locks_allows rfl
  have aside
      {ε α : Type}
      {program : Program ε α}
      (issues :
        Issues Call.Credible
          ((Command.protect refName ttl).Allows bucketPrefix) program)
      (state : World × Nat) :
      Safe (guarding bucketPrefix refName) (faulty answer failed plan)
        (fun _ _ => True) program state :=
    safe_beside (fun _ _ _ _ => trivial) issues trivial
  have held (now : Int) (state : World × Nat) :
      Safe (guarding bucketPrefix refName) (faulty answer failed plan)
        (whenOk fun ended later =>
          ∀ released, ended = some (.ok (), released) →
            Marked bucketPrefix refName later)
        (holdingLock (lockKey bucketPrefix refName) ttl now
          (protectUnderLock bucketPrefix refName)) state := by
    unfold holdingLock
    apply (aside (locks.issues_acquireLock ttl now) state).keeping
    intro acquired before _ _
    split
    · apply (safe_protectUnderLock before).attempt.andThen
      intro result worked _ marked
      have releasing :
          Safe (guarding bucketPrefix refName)
            (faulty answer failed plan)
            (fun _ later =>
              result = .ok () → Marked bucketPrefix refName later)
            ((releaseLock (lockKey bucketPrefix refName)).attempt :
              Program ObjectStoreError
                (Except ObjectStoreError Unit)) worked := by
        apply @safe_beside _ _ plan refName _ _ ttl
        · exact fun _ _ stays known same => stays (known same)
        · apply Issues.attempt
          apply issues_deleteIdempotent
          rw [lockKey_eq]
          exact locks.unlock
        · rintro rfl
          exact marked
      apply releasing.keeping
      intro released after _ known later stays _ other same
      cases same
      exact stays (known rfl)
    · intro later _ _ released same
      cases same
  have managed :
      Safe (guarding bucketPrefix refName) (faulty answer failed plan)
        (whenOk fun _ later => Marked bucketPrefix refName later)
        (protect bucketPrefix refName ttl) state := by
    unfold protect withRefLock
    apply Safe.keeping
    · apply aside
      apply issues_list_bind trivial
      intro opened _
      split <;> trivial
    intro _ opened _ _
    apply Safe.keeping
    · apply aside
      exact issues_request trivial fun _ => trivial
    intro now started _ _
    apply (held now started).convert.andThen
    intro ended later _ known
    rcases ended with _ | ⟨result, released⟩
    · exact safe_fail
    · cases result with
      | error error => exact safe_fail
      | ok _ => exact fun last stays _ => stays (known released rfl)
  apply managed.convert.andThen
  exact fun _ _ _ marked _ stays _ => stays marked

/-- A protection has reported success only where the marker is there. -/
theorem marked_of_reported
    {start : World × Nat}
    {pool : Pool ι Command Call Reply Unit Empty (World × Nat)}
    (reached :
      (clients bucketPrefix plan ι).Reaches
        (fun pool => pool.Meets (Spares refName)) (.quiet start) pool)
    {client : ι}
    {ttl : Int}
    (ended :
      pool.phase client =
        .preparing (.protect refName ttl) (.done none)) :
    Marked bucketPrefix refName pool.state := by
  have safe
      (command : Command)
      (state : World × Nat) :
      Safe (guarding bucketPrefix refName) (faulty answer failed plan)
        (fun result later =>
          ∀ ttl, command = .protect refName ttl →
            whenOk (fun _ later => Marked bucketPrefix refName later)
              result later)
        (program bucketPrefix command) state := by
    by_cases protects : ∃ ttl, command = .protect refName ttl
    · rcases protects with ⟨ttl, rfl⟩
      exact
        (safe_protect ttl state).weaken
          fun _ _ _ known _ _ => known
    · have unasked :
          Safe (guarding bucketPrefix refName)
            (faulty answer failed plan) (fun _ _ => True)
            (program bucketPrefix command) state :=
        (issues_program command).safe credible_faulty
          (fun _ _ _ _ _ _ => ⟨⟨trivial, trivial⟩, trivial⟩)
          (fun _ _ _ _ => trivial) trivial
      exact
        unasked.weaken fun _ _ _ _ ttl same =>
          absurd ⟨ttl, same⟩ protects
  have waiting :=
    obeys_clients.promised (guarding bucketPrefix refName) _
      (fun _ _ => ⟨trivial, trivial⟩)
      (fun _ command state => safe command state) (fun _ _ => id)
      (fun _ _ => id)
      (fun _ _ _ _ spares allows => marked_call spares allows)
      reached client _ _ ended
  exact waiting pool.state id trivial ttl rfl

/--
A marker that is there, whatever was done before, and one that a protection
has reported holds until an `unprotect` of the reference: whatever else the
clients do, in whatever order, and whatever calls fail.
-/
theorem protected_until_unprotect
    {start : World × Nat}
    {pool later : Pool ι Command Call Reply Unit Empty (World × Nat)}
    (isProtected :
      ((clients bucketPrefix plan ι).Reaches
          (fun pool => pool.Meets Any) (.quiet start) pool ∧
        Marked bucketPrefix refName pool.state) ∨
      ((clients bucketPrefix plan ι).Reaches
          (fun pool => pool.Meets (Spares refName)) (.quiet start) pool ∧
        ∃ client ttl,
          pool.phase client =
            .preparing (.protect refName ttl) (.done none)))
    (more :
      (clients bucketPrefix plan ι).Reaches
        (fun pool => pool.Meets (Spares refName)) pool later) :
    Marked bucketPrefix refName later.state := by
  have lasts
      (client : ι)
      (command : Command)
      (request : Call)
      (state : World × Nat)
      (spares : Spares refName client command request state)
      (allows : command.Allows bucketPrefix request) :
      Marked bucketPrefix refName state →
        Marked bucketPrefix refName
          (faulty answer failed plan request state).2 :=
    marked_call spares allows
  rcases isProtected with ⟨reached, marked⟩ | ⟨reached, client, ttl, ended⟩
  · exact
      obeys_clients.lasts reached more (Marked bucketPrefix refName)
        (fun _ _ => id) (fun _ _ => id) lasts marked
  · exact
      obeys_clients.lasts reached more (Marked bucketPrefix refName)
        (fun _ _ => id) (fun _ _ => id) lasts
        (marked_of_reported reached ended)

instance
    (client : ι)
    (command : Command)
    (request : Call)
    (state : World × Nat) :
    Decidable (Any client command request state) :=
  inferInstanceAs (Decidable True)

instance
    (client : ι)
    (command : Command)
    (request : Call)
    (state : World × Nat) :
    Decidable (Spares refName client command request state) :=
  match command with
  | .unprotect other ttl =>
      if same : other = refName then
        .isFalse fun spares => spares ttl (by rw [same])
      else .isTrue fun ttl equal => by
        cases equal
        exact same rfl
  | .packchainPush .. => .isTrue fun _ equal => by cases equal
  | .bundlePush .. => .isTrue fun _ equal => by cases equal
  | .compact .. => .isTrue fun _ equal => by cases equal
  | .deleteBranch .. => .isTrue fun _ equal => by cases equal
  | .protect .. => .isTrue fun _ equal => by cases equal
  | .mark .. => .isTrue fun _ equal => by cases equal
  | .sweep .. => .isTrue fun _ equal => by cases equal

end Schedules

/-! ## A branch being protected -/

section Protecting

attribute [local instance] Platform.simple

/-- A branch of a repository, and its `FORMAT`. -/
def unguarded : World :=
  ((World.empty 0).put (Slot.format.key none) (.text (lit "bundle"))).put
    (archiveKey none .main) (.file [])

/-- The calls of a protection, the third of which loses its reply. -/
def lostReply : FaultPlan Call ObjectStoreError :=
  fun count _ => if count = 5 then some ⟨.network, true⟩ else none

/-- A client opens the branch, takes its lock and lists it again. -/
def opening : List (CallProgram.Action Nat Command) :=
  .start 0 (.protect .main 60) :: Action.calls 0 4

/-- The marker is written, the lock released; another client deletes. -/
def deleting : List (CallProgram.Action Nat Command) :=
  .call 0 :: .settle 0 :: .start 1 (.deleteBranch .main true 60) ::
    Action.calls 1 2 ++ [.settle 1]

/-- A first push by the bundle engine. -/
def bundleFirst : List (CallProgram.Action Nat Command) :=
  .start 0 (.bundlePush .linear false ⟨false, ['a'], .main⟩ 60 0) ::
    Action.calls 0 8 ++ [.settle 0]

/-- A push by the packchain engine, up to its attempt on `FORMAT`. -/
def packchainNext : List (CallProgram.Action Nat Command) :=
  .start 1 (.packchainPush .linear ⟨false, ['a'], .main⟩ 60 0) ::
    Action.calls 1 6

/-- Whether a call tries to write `FORMAT` of the packchain engine. -/
def claimsFormat : Call → Bool
  | .putIfAbsent key (.text content) =>
      decide (key = Slot.format.key none ∧ content = lit "packchain")
  | _ => false

/-- The push of the other engine tries to write `FORMAT`, and goes on. -/
theorem fixed_once_filled_claimed :
    ∃ pool tried later object,
      (clients none (fun _ _ => none) Nat).schedule?
          (fun pool => pool.Meets Any) bundleFirst
          (.quiet (.empty 0, 0)) = some pool ∧
        (clients none (fun _ _ => none) Nat).schedule?
          (fun pool => pool.Meets Any) packchainNext pool = some tried ∧
        (tried.phase 1).nextCall?.any
          (fun next => claimsFormat next.2) = true ∧
        (clients none (fun _ _ => none) Nat).schedule?
          (fun pool => pool.Meets Any)
          (Action.calls 1 5 ++ [.settle 1]) tried = some later ∧
        pool.state.1.get? (Slot.format.key none) = some object ∧
        later.state.1.get? (Slot.format.key none) = some object := by
  have executed :
      ((clients none (fun _ _ => none) Nat).schedule?
          (fun pool => pool.Meets Any) bundleFirst
          (.quiet (.empty 0, 0))).map
        (fun pool =>
          ((pool.state.1.get? (Slot.format.key none)).isSome,
            ((clients none (fun _ _ => none) Nat).schedule?
                (fun pool => pool.Meets Any) packchainNext pool).map
              fun tried =>
                ((tried.phase 1).nextCall?.any
                    fun next => claimsFormat next.2,
                  ((clients none (fun _ _ => none) Nat).schedule?
                    (fun pool => pool.Meets Any)
                    (Action.calls 1 5 ++ [.settle 1]) tried).isSome))) =
        some (true, some (true, true)) := by
    decide +kernel
  rcases Option.map_eq_some_iff.1 executed with ⟨pool, first, known⟩
  simp only [Prod.mk.injEq] at known
  rcases known with ⟨filled, followed⟩
  rcases Option.map_eq_some_iff.1 followed with ⟨tried, second, rest⟩
  simp only [Prod.mk.injEq] at rest
  rcases rest with ⟨claims, continued⟩
  rcases Option.isSome_iff_exists.1 continued with ⟨later, third⟩
  rcases Option.isSome_iff_exists.1 filled with ⟨object, stored⟩
  have reached :
      (clients none (fun _ _ => none) Nat).Reaches
        (fun pool => pool.Meets Any) (.quiet (.empty 0, 0)) pool :=
    System.Reaches.refl.schedule first
  have more :
      (clients none (fun _ _ => none) Nat).Reaches
        (fun pool => pool.Meets Any) pool later :=
    (System.Reaches.refl.schedule second).schedule third
  exact
    ⟨pool, tried, later, object, first, second, claims, third, stored,
      fixed_once_filled reached (Or.inr rfl) stored more⟩

theorem protected_until_unprotect_deleting :
    ∃ pool later,
      (clients none lostReply Nat).schedule? (fun pool => pool.Meets Any)
          (opening ++ Action.calls 0 1) (.quiet (unguarded, 0)) =
        some pool ∧
      (clients none lostReply Nat).schedule?
          (fun pool => pool.Meets (Spares .main)) deleting pool =
        some later ∧
      Marked none .main later.state := by
  have executed :
      ((clients none lostReply Nat).schedule?
          (fun pool => pool.Meets Any)
          (opening ++ Action.calls 0 1) (.quiet (unguarded, 0))).map
        (fun pool =>
          ((pool.state.1.get? (protectedMarkerKey none .main)).isSome,
            ((clients none lostReply Nat).schedule?
              (fun pool => pool.Meets (Spares .main)) deleting
              pool).isSome)) = some (true, true) := by
    decide +kernel
  rcases Option.map_eq_some_iff.1 executed with ⟨pool, reached, known⟩
  simp only [Prod.mk.injEq] at known
  rcases known with ⟨marked, continued⟩
  rcases Option.isSome_iff_exists.1 continued with ⟨later, more⟩
  exact
    ⟨pool, later, reached, more,
      protected_until_unprotect
        (Or.inl ⟨System.Reaches.refl.schedule reached, marked⟩)
        (System.Reaches.refl.schedule more)⟩

end Protecting

end GitRemoteObjectStore.Ownership
