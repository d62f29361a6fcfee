import GitRemoteObjectStore.ChainClosure
import GitRemoteObjectStore.Ownership

/-!
# Stored objects are what they are named

Clients run the commands of both engines and of the collector, interleaved at
single store calls.  Locks may be broken or left behind, calls may fail with
or without effect, and clients may stop anywhere.  As long as repositories
answer what their databases say, every pack and bundle stored has the objects
of its name, every chain is complete down from its tip, and every path index
names what its tip reaches.
-/

namespace GitRemoteObjectStore.Provenance

open CallProgram Prog Packchain Closure Ownership
open GitRemoteObjectStore.ChainClosure

/-! ## What may be stored -/

section Bodies

variable
    [Platform]
    (objects : Objects)
    (contents : Contents)
    (bucketPrefix : Option Text)

/-- A chain that is complete and names its packs canonically. -/
structure Linked (chain : ChainManifest) : Prop where
  complete : Complete objects contents chain
  canonical :
    ∀ segment ∈ chain.segments,
      ∃ name, segment.pack = packKey none name

/-- What may be stored in a slot. -/
def Genuine (body : Body) : Slot → Prop
  | .pack name => PackBody contents name body
  | .ref _ (.bundle tip) => BundleBody objects contents tip body
  | .ref _ .chain =>
      ∀ chain, body = .chain chain → Linked objects contents chain
  | .ref _ .pathIndex =>
      ∀ index, body = .pathIndex index → Resolves objects index.tip index
  | _ => True

/-- Every slot of a bucket has what it may have. -/
def Stored (world : World) : Prop :=
  ∀ slot : Slot, ∀ body,
    world.body? (slot.key bucketPrefix) = some body →
      Genuine objects contents body slot

/-- Calls that write nothing else. -/
def Proper : Call → Prop
  | .put key body =>
      ∀ slot : Slot,
        key = slot.key bucketPrefix → Genuine objects contents body slot
  | .putIfAbsent key body =>
      ∀ slot : Slot,
        key = slot.key bucketPrefix → Genuine objects contents body slot
  | _ => True

/-- Replies that tell what may be stored. -/
def Telling : (request : Call) → Reply request → Prop
  | .get key, reply =>
      ∀ body, reply = .ok body → ∀ slot : Slot,
        key = slot.key bucketPrefix → Genuine objects contents body slot
  | request, reply => request.Credible reply

end Bodies

section Keeping

variable
    [Platform]
    {objects : Objects}
    {contents : Contents}
    {bucketPrefix : Option Text}

theorem credible_of_telling
    (request : Call)
    (reply : Reply request)
    (telling : Telling objects contents bucketPrefix request reply) :
    request.Credible reply := by
  cases request with
  | get key => trivial
  | _ => exact telling

theorem Stored.put
    {world : World}
    (stored : Stored objects contents bucketPrefix world)
    {key : Text}
    {body : Body}
    (proper :
      ∀ slot : Slot,
        key = slot.key bucketPrefix → Genuine objects contents body slot) :
    Stored objects contents bucketPrefix (world.put key body) := by
  intro slot other found
  rw [World.body?_put] at found
  split at found
  next same =>
      cases found
      exact proper slot same.symm
  · exact stored slot other found

/-- A proper call leaves what may be stored. -/
theorem Stored.call
    {world : World}
    (stored : Stored objects contents bucketPrefix world)
    {request : Call}
    (proper : Proper objects contents bucketPrefix request) :
    Stored objects contents bucketPrefix (answer request world).2 := by
  cases request with
  | put key body => exact stored.put proper
  | putIfAbsent key body =>
      simp only [answer]
      cases world.get? key with
      | some object => exact stored
      | none => exact stored.put proper
  | delete key =>
      simp only [answer]
      cases world.get? key with
      | none => exact stored
      | some object =>
          intro slot body found
          simp only [World.body?_remove] at found
          split at found
          · cases found
          · exact stored slot body found
  | get key =>
      simp only [answer]
      cases world.get? key <;> exact stored
  | head key =>
      simp only [answer]
      cases world.get? key <;> exact stored
  | _ => exact stored

/-- The store tells what is stored, or fails. -/
theorem telling_faulty
    {plan : FaultPlan Call ObjectStoreError}
    (request : Call)
    {state : World × Nat}
    (stored : Stored objects contents bucketPrefix state.1) :
    Telling objects contents bucketPrefix request
      (faulty answer failed plan request state).1 := by
  cases request with
  | get key =>
      rcases state with ⟨world, count⟩
      intro body told slot same
      subst same
      rcases
        @faulty_cases _ _ _ _ answer failed plan
          (.get (slot.key bucketPrefix)) world count with
        answered | ⟨fault, reply, later, -, broke, -, answered⟩
      · rw [answered] at told
        apply stored slot body
        unfold World.body?
        simp only [answer] at told
        cases found : world.get? (slot.key bucketPrefix) with
        | none =>
            rw [found] at told
            cases told
        | some object =>
            rw [found] at told
            cases told
            rfl
      · rw [answered] at told
        cases broke
        cases told
  | list start => exact credible_faulty (.list start) state
  | _ => trivial

end Keeping

/-! ## Truthful commands -/

/-- A command in repositories that answer what their databases say. -/
def Honest
    [Platform]
    (packer : Packer)
    (objects : Objects)
    (contents : Contents) : Command → Prop
  | .packchainPush repo _ _ _ =>
      ∃ odb, RepoOver repo packer objects contents odb
  | .bundlePush repo _ _ _ _ =>
      ∃ odb, RepoOver repo packer objects contents odb
  | .compact scratch _ _ _ =>
      ∀ bundle packs repo,
        scratch.install bundle packs = .ok repo →
          ∃ odb, RepoOver repo packer objects contents odb
  | _ => True

section Programs

variable
    [Platform]
    {packer : Packer}
    {objects : Objects}
    {contents : Contents}
    {bucketPrefix : Option Text}

theorem proper_reads
    (request : Call)
    (reads : request.Reads) :
    Proper objects contents bucketPrefix request := by
  cases request with
  | put key body => exact reads.elim
  | putIfAbsent key body => exact reads.elim
  | _ => trivial

theorem proper_put
    {slot : Slot}
    {body : Body}
    (genuine : Genuine objects contents body slot) :
    Proper objects contents bucketPrefix
      (.put (slot.key bucketPrefix) body) := by
  intro other same
  obtain rfl := (Slot.key_inj _).1 same
  exact genuine

theorem proper_create
    {slot : Slot}
    {body : Body}
    (genuine : Genuine objects contents body slot) :
    Proper objects contents bucketPrefix
      (.putIfAbsent (slot.key bucketPrefix) body) := by
  intro other same
  obtain rfl := (Slot.key_inj _).1 same
  exact genuine

theorem locks_proper (refName : RefName) :
    Locks bucketPrefix refName
      (Proper objects contents bucketPrefix) where
  reads := proper_reads
  lock := proper_create trivial
  unlock := trivial

theorem proper_tombstone
    (runId : Component)
    (record : BaselineTombstone) :
    Proper objects contents bucketPrefix
      (.put (baselineTombstoneKey (prefixText bucketPrefix) runId)
        (.baselineTombstone record)) := by
  rw [baselineTombstoneKey_eq]
  exact proper_put trivial

/-- What is issued whatever the replies. -/
abbrev Issuing
    {ε α : Type}
    (objects : Objects)
    (contents : Contents)
    (bucketPrefix : Option Text)
    (program : Program ε α) : Prop :=
  Issues (Telling objects contents bucketPrefix)
    (Proper objects contents bucketPrefix) program

theorem issuing
    {ε α : Type}
    {program : Program ε α}
    (issues :
      Issues Call.Credible (Proper objects contents bucketPrefix)
        program) :
    Issuing objects contents bucketPrefix program :=
  issues.trusting credible_of_telling

theorem issuing_put
    {ε : Type}
    {convert : ObjectStoreError → ε}
    {slot : Slot}
    {body : Body}
    (genuine : Genuine objects contents body slot) :
    Issuing objects contents bucketPrefix
      ((Store.putBytes (slot.key bucketPrefix) body).mapError convert) := by
  apply issuing
  apply Issues.mapError
  apply issues_request (proper_put genuine)
  simp

theorem issuing_create
    {ε : Type}
    {convert : ObjectStoreError → ε}
    {slot : Slot}
    {body : Body}
    (genuine : Genuine objects contents body slot) :
    Issuing objects contents bucketPrefix
      ((Store.putIfAbsent (slot.key bucketPrefix) body).mapError
        convert) := by
  apply issuing
  apply Issues.mapError
  apply issues_request (proper_create genuine)
  simp

/-- The lock is taken and released around what is issued. -/
theorem issuing_holdingLock
    {ε α : Type}
    {refName : RefName}
    {work : Program ε α}
    (working : Issuing objects contents bucketPrefix work)
    (ttl now : Int) :
    Issuing objects contents bucketPrefix
      (holdingLock (lockKey bucketPrefix refName) ttl now work) := by
  unfold holdingLock
  apply
    (issuing ((locks_proper refName).issues_acquireLock ttl now)).bind
  intro acquired
  split
  · apply working.attempt.bind
    intro _
    apply Issues.bind
    · apply Issues.attempt
      apply issuing
      apply issues_deleteIdempotent
      trivial
    intro _
    trivial
  · trivial

theorem issuing_underRefLock
    {refName : RefName}
    {work : Program PushError PushOutcome}
    (working : Issuing objects contents bucketPrefix work)
    (ttl now : Int)
    (who : String) :
    Issuing objects contents bucketPrefix
      (underRefLock bucketPrefix refName ttl now who work) := by
  unfold underRefLock
  apply (issuing_holdingLock working ttl now).mapError.bind
  intro held
  cases held with
  | none => trivial
  | some ended => exact issues_ofExcept _

/-- What is issued whatever the replies, and what is returned. -/
abbrev Working
    {ε α : Type}
    (objects : Objects)
    (contents : Contents)
    (bucketPrefix : Option Text)
    (good : α → Prop)
    (program : Program ε α) : Prop :=
  Works (Telling objects contents bucketPrefix)
    (Proper objects contents bucketPrefix) good program

/-- A chain that is loaded is linked. -/
theorem working_loadChain (refName : RefName) :
    Working objects contents bucketPrefix
      (fun found =>
        ∀ chain, found = some chain → Linked objects contents chain)
      (loadChain bucketPrefix refName) := by
  refine ⟨issuing (issues_loadChain proper_reads _ _), ?_⟩
  unfold loadChain
  intro reply telling
  cases reply with
  | error error =>
      cases error with
      | notFound key =>
          intro chain same
          cases same
      | _ => trivial
  | ok body =>
      simp only [Prog.ofExcept, attempt_done, Prog.bind]
      cases parsed : ChainManifest.fromJsonBytes body with
      | error error => trivial
      | ok manifest =>
          intro chain same
          cases same
          exact
            telling body rfl (.ref refName .chain)
              (chainKey_eq _ _) manifest
              (ChainManifest.fromJsonBytes_ok.1 parsed).1

/-! ### Packchain pushes -/

/-- What a prepared push carries into the lock. -/
structure Carried
    (objects : Objects)
    (contents : Contents)
    (refName : RefName)
    (ready : ReadyState) : Prop where
  own : ready.remoteRef = refName
  brings :
    ∃ built,
      ready.packContentSha = built.1.contentSha ∧
        Brings objects contents (ready.prior.map ChainManifest.tip)
          ready.localSha ready.force built
  prior :
    ∀ chain, ready.prior = some chain → Linked objects contents chain

theorem Carried.linked
    {refName : RefName}
    {ready : ReadyState}
    (carried : Carried objects contents refName ready) :
    Linked objects contents (committedManifest ready) := by
  rcases carried.brings with ⟨built, named, brings⟩
  constructor
  · exact
      complete_committedManifest named brings fun chain same =>
        (carried.prior chain same).complete
  · unfold committedManifest
    by_cases root : ready.force = true ∨ ready.prior = none
    · rw [nextManifest_root _ _ _ _ root]
      intro segment member
      rw [List.mem_singleton.1 member]
      exact ⟨_, rfl⟩
    · push Not at root
      rcases root with ⟨unforced, some?⟩
      rcases Option.ne_none_iff_exists'.1 some? with ⟨chain, same⟩
      rw [Bool.eq_false_iff.2 unforced, same]
      intro segment member
      rcases List.mem_cons.1 member with rfl | older
      · exact ⟨_, rfl⟩
      · exact (carried.prior chain same).canonical segment older

theorem issuing_uploadPackIdxBaseline
    (refName : RefName)
    {prior : Option Sha}
    {localSha : Sha}
    {force : Bool}
    {built : BuiltPack × Option (List UInt8)}
    (brings : Brings objects contents prior localSha force built) :
    Issuing objects contents bucketPrefix
      (uploadPackIdxBaseline bucketPrefix refName localSha built.1
        built.2) := by
  rcases brings.pack with ⟨names, holds, -⟩
  unfold uploadPackIdxBaseline
  rw [packKey_eq, packIdxKey_eq, bundleKey_eq]
  apply Issues.bind
  · apply issuing_put
    exact
      ⟨by rw [holds.named], by rw [← holds.named]; exact holds.readable⟩
  intro _
  apply Issues.bind
  · apply issuing_put
    trivial
  intro _
  cases bundled : built.2 with
  | none => trivial
  | some bytes =>
      apply issuing_put
      exact ⟨bytes, rfl, brings.bundle bytes bundled⟩

section Pushes

variable
    (exact : packer.Exact objects contents)
    {repo : LocalRepo}
    {odb : Odb}
    (backed : RepoOver repo packer objects contents odb)

include exact backed

/-- A preparation uploads what its pack and bundle are named. -/
theorem working_preparePush (spec : PushSpec) :
    Working objects contents bucketPrefix
      (fun prepared =>
        ∀ ready, prepared = .ready ready →
          Carried objects contents spec.remoteRef ready)
      (preparePush bucketPrefix repo spec) := by
  unfold preparePush
  apply (working_loadChain spec.remoteRef).mapError.bind
  intro prior linked
  apply (works_ofExcept _).bind
  intro probe probed
  cases probe with
  | error refusal =>
      apply works_done
      intro ready same
      cases same
  | ok found =>
      simp only
      split
      · apply works_done
        intro ready same
        cases same
      · apply (works_ofExcept _).mapError.bind
        intro built builds
        have brings :=
          brings_of_builds exact backed
            (localGitWorkPackchain_ok.1 probed) builds
        apply
          (issuing_uploadPackIdxBaseline spec.remoteRef
            brings).works.bind
        intro _ _
        apply works_done
        intro ready same
        cases same
        exact ⟨rfl, ⟨built, rfl, brings⟩, linked⟩

omit exact in
/-- The locked section writes a linked chain and what its index names. -/
theorem issuing_performPushUnderLock
    {refName : RefName}
    {ready : ReadyState}
    (carried : Carried objects contents refName ready) :
    Issuing objects contents bucketPrefix
      (performPushUnderLock bucketPrefix repo ready) := by
  unfold performPushUnderLock
  apply (issuing (issues_loadChain proper_reads _ _)).mapError.bind
  intro current
  apply
    (issuing
      (Packchain.issues_forceRefused proper_reads _ repo ready
        current)).bind
  intro refused
  split
  · trivial
  split
  · trivial
  apply issues_checkedAs
  intro pathIndex extracted
  unfold commitPush
  rw [formatKey_eq, headKey_eq]
  apply Issues.bind
  · apply issuing_create
    trivial
  intro _
  apply Issues.bind
  · apply issuing_create
    trivial
  intro _
  apply Issues.bind
  · apply Issues.mapError
    unfold writeChain
    rw [chainKey_eq]
    apply issuing_put
    intro chain same
    cases same
    exact carried.linked
  intro _
  apply Issues.bind
  · unfold writeOrDropPathIndex writePathIndex
    rw [pathIndexKey_eq]
    cases pathIndex with
    | none =>
        apply Issues.mapError
        apply issuing
        apply issues_deleteIdempotent
        trivial
    | some index =>
        apply Issues.mapError
        apply issuing_put
        rintro other ⟨⟩
        unfold pathIndexOf at extracted
        split at extracted
        · cases extracted
        · split at extracted
          · cases extracted
          next peeled peels =>
              have resolves :=
                resolves_of_extracted backed peels extracted
              rw [resolves.1]
              exact resolves
  intro _
  split
  · apply
      (issuing
        (issues_forcePushBaselineCleanup proper_reads _ _ _ _
          proper_tombstone)).bind
    intro _
    trivial
  · trivial

theorem issuing_packchainPush
    (spec : PushSpec)
    (ttl now : Int) :
    Issuing objects contents bucketPrefix
      (Packchain.pushOne bucketPrefix repo ttl now spec) := by
  unfold Packchain.pushOne
  split
  · apply issuing
    apply (locks_proper spec.remoteRef).issues_underRefLock
    exact
      Ownership.issues_deleteUnderLock proper_reads proper_tombstone
        fun _ _ _ => trivial
  · have prepares :=
      @working_preparePush _ packer objects contents bucketPrefix exact
        repo odb backed spec
    apply prepares.issues.bindReturns prepares.returns
    intro prepared carried
    cases prepared with
    | done outcome => trivial
    | ready ready =>
        apply issuing_underRefLock
        exact issuing_performPushUnderLock backed (carried ready rfl)

/-! ### Bundle pushes -/

omit exact backed in
theorem issuing_tombstonedBundleKeys :
    Issuing objects contents bucketPrefix
      (tombstonedBundleKeys bucketPrefix) := by
  unfold tombstonedBundleKeys
  apply issuing
  apply issues_request (proper_reads (.list _) trivial)
  intro reply
  rcases reply with error | metas
  · cases error <;> trivial
  · apply issues_foldEach
    intro keys entry _
    split
    · apply issues_request (proper_reads (.get _) trivial)
      intro reply
      rcases reply with error | body
      · cases error <;> trivial
      · trivial
    · trivial

omit exact backed in
theorem issuing_bundlesForRef
    (refName : RefName)
    (hidden : List Text) :
    Issuing objects contents bucketPrefix
      (Bundle.bundlesForRef bucketPrefix refName hidden) := by
  apply issuing
  apply issues_request (proper_reads (.list _) trivial)
  intro reply
  cases reply <;> trivial

omit exact backed in
theorem issuing_supersedePrior
    {ε : Type}
    (ready : Bundle.PushReadyState)
    (currentKey : Option Text) :
    Issuing objects contents bucketPrefix
      (Bundle.supersedePrior bucketPrefix ready currentKey :
        Program ε Unit) := by
  cases currentKey with
  | none => trivial
  | some prior =>
      have dropping :
          Issuing objects contents bucketPrefix
            (Bundle.deletePriorBundleBestEffort prior :
              Program ε Unit) := by
        unfold Bundle.deletePriorBundleBestEffort
        apply Issues.bind
        · apply Issues.attempt
          apply issuing
          apply issues_deleteIdempotent
          trivial
        intro _
        trivial
      unfold Bundle.supersedePrior
      simp only
      split
      · unfold Bundle.deferPriorBundleViaTombstone
        split
        · exact dropping
        · apply
            (issuing
              (issues_writeBaselineTombstoneBestEffort proper_reads _ _ _
                _ proper_tombstone)).bind
          intro wrote
          split
          · trivial
          · exact dropping
      · trivial

omit exact in
/-- A prepared push carries a bundle of what it is to be named. -/
theorem working_prepareBundle
    (zip : Bool)
    (spec : PushSpec) :
    Working objects contents bucketPrefix
      (fun prepared =>
        ∀ ready, prepared = Bundle.PrepareOutcome.ready ready →
          BundleHolds objects contents ready.localSha ready.bundle)
      (Bundle.preparePush bucketPrefix repo zip spec) := by
  have ends
      {prepared : Bundle.PrepareOutcome}
      (unready : ∀ ready, prepared ≠ .ready ready) :
      Working objects contents bucketPrefix
        (fun prepared =>
          ∀ ready, prepared = Bundle.PrepareOutcome.ready ready →
            BundleHolds objects contents ready.localSha ready.bundle)
        (.done prepared : Program PushError Bundle.PrepareOutcome) :=
    works_done fun ready same => absurd same (unready ready)
  unfold Bundle.preparePush
  split
  · exact ends (by simp)
  apply (issuing_tombstonedBundleKeys.mapError).works.bind
  intro hidden _
  apply (issuing_bundlesForRef _ hidden).mapError.works.bind
  intro preBundles _
  split
  · exact ends (by simp)
  simp only
  split
  · exact ends (by simp)
  apply (works_ofExcept _).mapError.bind
  intro probe _
  rcases probe with refusal | found
  · cases refusal <;> exact ends (by simp)
  · apply (works_ofExcept _).mapError.bind
    intro bundle bundled
    apply works_done
    rintro ready ⟨⟩
    exact backed.bundles _ _ _ bundled

omit exact backed in
theorem issuing_performBundlePush
    {ready : Bundle.PushReadyState}
    (holds : BundleHolds objects contents ready.localSha ready.bundle) :
    Issuing objects contents bucketPrefix
      (Bundle.performPushUnderLock bucketPrefix ready) := by
  unfold Bundle.performPushUnderLock
  apply Issues.bind
  · unfold Bundle.forceRefused
    split
    · apply Issues.mapError
      exact issuing (issues_isProtected proper_reads _ _)
    · trivial
  intro refused
  split
  · trivial
  apply (issuing_bundlesForRef _ _).mapError.bind
  intro current
  split
  · trivial
  simp only
  split
  · trivial
  unfold Bundle.commitPush
  rw [bundleKey_eq, headKey_eq, formatKey_eq]
  apply Issues.bind
  · apply issuing_put
    exact ⟨_, rfl, holds⟩
  intro _
  apply Issues.bind
  · apply issuing_create
    trivial
  intro _
  apply Issues.bind
  · apply issuing_create
    trivial
  intro _
  apply (issuing_supersedePrior ready _).bind
  intro _
  apply Issues.bind
  · unfold Bundle.uploadArchive Bundle.uploadZipArtifactBestEffort
    rw [archiveKey_eq]
    split
    · trivial
    · apply Issues.bind
      · apply Issues.attempt
        apply issuing
        apply issues_request
        · apply proper_put
          trivial
        · simp
      intro _
      trivial
  intro _
  trivial

omit exact in
theorem issuing_bundlePush
    (zip : Bool)
    (spec : PushSpec)
    (ttl now : Int) :
    Issuing objects contents bucketPrefix
      (Bundle.pushOne bucketPrefix repo zip ttl now spec) := by
  unfold Bundle.pushOne
  have prepares :=
    @working_prepareBundle _ packer objects contents bucketPrefix repo odb
      backed zip spec
  apply prepares.issues.bindReturns prepares.returns
  intro prepared holds
  cases prepared with
  | done outcome => trivial
  | ready ready =>
      apply issuing_underRefLock
      exact issuing_performBundlePush (holds ready rfl)
  | delete refName =>
      apply issuing_underRefLock
      apply issuing
      exact
        Ownership.issues_deleteRemoteRefUnderLock proper_reads
          fun _ _ _ => trivial

end Pushes

/-! ### Compactions -/

theorem issuing_commitCompaction
    (exact : packer.Exact objects contents)
    {repo : LocalRepo}
    {odb : Odb}
    (backed : RepoOver repo packer objects contents odb)
    {scratch : Scratch}
    {chain : ChainManifest}
    {directory : Directory}
    {built : BuiltPack × Option PathIndex × List UInt8}
    {peeled : PeeledTip}
    (rebuilt : Rebuilt scratch chain directory built repo peeled)
    (refName : RefName) :
    Issuing objects contents bucketPrefix
      (commitCompaction bucketPrefix refName chain built) := by
  have peels := rebuilt.peels
  have packs := rebuilt.pack
  rw [backed.peels] at peels
  rw [backed.baseline] at packs
  have holds := exact.baseline peels packs
  unfold commitCompaction
  simp only [packKey_eq, packIdxKey_eq, bundleKey_eq]
  apply Issues.bind
  · apply issuing_put
    exact
      ⟨by rw [holds.named], by rw [← holds.named]; exact holds.readable⟩
  intro _
  apply Issues.bind
  · apply issuing_put
    trivial
  intro _
  apply Issues.bind
  · apply issuing_put
    exact ⟨_, rfl, backed.bundles _ _ _ rebuilt.bundle⟩
  intro _
  apply Issues.bind
  · unfold writeChain
    rw [chainKey_eq]
    apply issuing_put
    rintro other ⟨⟩
    constructor
    · exact complete_single holds.inside
    · intro segment member
      rw [List.mem_singleton.1 member]
      exact ⟨_, rfl⟩
  intro _
  apply Issues.bind
  · unfold writePathIndexIfAny writePathIndex
    rw [pathIndexKey_eq]
    cases index? : built.2.1 with
    | none => trivial
    | some index =>
        apply issuing_put
        rintro other ⟨⟩
        have resolves :=
          resolves_of_extracted backed rebuilt.peels
            (rebuilt.pathIndex.trans (by rw [index?]))
        rw [resolves.1]
        exact resolves
  intro _
  apply
    (issuing
      (issues_writeBaselineTombstoneBestEffort proper_reads _ _ _ _
        proper_tombstone)).bind
  intro _
  trivial

theorem issuing_compact
    (exact : packer.Exact objects contents)
    {scratch : Scratch}
    (honest :
      ∀ bundle packs repo,
        scratch.install bundle packs = .ok repo →
          ∃ odb, RepoOver repo packer objects contents odb)
    (refName : RefName)
    (force : Bool)
    (ttl : Int) :
    Issuing objects contents bucketPrefix
      (compact bucketPrefix scratch refName force ttl) := by
  have working :
      Issuing objects contents bucketPrefix
        (compactUnderLock bucketPrefix scratch refName) := by
    unfold compactUnderLock
    apply (issuing (issues_loadChain proper_reads _ _)).bind
    intro found
    cases found with
    | none => trivial
    | some chain =>
        apply
          (issuing
            (issues_downloadChainArtefacts proper_reads _ _ _ _)).bind
        intro directory
        apply issues_checked
        intro built builds
        rcases rebuild_ok.1 builds with ⟨repo, peeled, rebuilt⟩
        rcases exists_install rebuilt.installed with
          ⟨bundle, packs, installed⟩
        rcases honest bundle packs repo installed with ⟨odb, backed⟩
        exact issuing_commitCompaction exact backed rebuilt refName
  unfold compact
  apply (issuing (issues_loadChain proper_reads _ _)).bind
  intro found
  cases found with
  | none => trivial
  | some prior =>
      simp only
      split
      · trivial
      refine ⟨trivial, fun now _ => ?_⟩
      apply (issuing_holdingLock working ttl now).mapError.bind
      intro ended
      rcases ended with _ | ⟨_ | _, _⟩ <;> trivial

/-! ### Every command -/

theorem issuing_deleteBranch
    (refName : RefName)
    (confirmed : Bool)
    (ttl : Int) :
    Issuing objects contents bucketPrefix
      (deleteBranch bucketPrefix refName confirmed ttl) := by
  apply issuing
  have working :
      Issues Call.Credible (Proper objects contents bucketPrefix)
        (deleteBranchUnderLock bucketPrefix refName) :=
    Ownership.issues_deleteBranchUnderLock proper_reads proper_tombstone
      fun _ _ _ => trivial
  unfold deleteBranch
  apply issues_list_bind trivial
  intro opened _
  split
  · trivial
  apply issues_list_bind trivial
  intro initial _
  split
  · trivial
  split
  · trivial
  refine ⟨trivial, fun now _ => ?_⟩
  apply
    ((locks_proper refName).issues_holdingLock working ttl
      now).mapError.bind
  intro ended
  rcases ended with _ | ⟨_ | _, _⟩ <;> trivial

/-- Opening a branch, and work under its lock. -/
theorem issuing_managed
    (refName : RefName)
    (ttl : Int)
    {work : Program ManageError Unit}
    (working : Issuing objects contents bucketPrefix work) :
    Issuing objects contents bucketPrefix
      (openBranch bucketPrefix refName >>= fun _ =>
        withRefLock bucketPrefix refName ttl work) := by
  apply Issues.bind
  · apply issuing
    apply issues_list_bind trivial
    intro opened _
    split <;> trivial
  intro _
  refine ⟨trivial, fun now _ => ?_⟩
  apply (issuing_holdingLock working ttl now).mapError.bind
  intro ended
  cases ended with
  | none => trivial
  | some ended => exact issues_ofExcept _

/-- Honest commands write only what may be stored. -/
theorem issuing_program
    (exact : packer.Exact objects contents)
    {command : Command}
    (honest : Honest packer objects contents command) :
    Issuing objects contents bucketPrefix
      (program bucketPrefix command) := by
  have ending
      {ε α : Type}
      {program : Program ε α}
      (issues : Issuing objects contents bucketPrefix program) :
      Issuing objects contents bucketPrefix (settled program) := by
    apply issues.mapError.bind
    intro _
    trivial
  cases command with
  | packchainPush repo spec ttl now =>
      rcases honest with ⟨odb, backed⟩
      exact ending (issuing_packchainPush exact backed spec ttl now)
  | bundlePush repo zip spec ttl now =>
      rcases honest with ⟨odb, backed⟩
      exact ending (issuing_bundlePush backed zip spec ttl now)
  | compact scratch refName force ttl =>
      exact ending (issuing_compact exact honest refName force ttl)
  | deleteBranch refName confirmed ttl =>
      exact ending (issuing_deleteBranch refName confirmed ttl)
  | protect refName ttl =>
      apply ending
      apply issuing_managed
      apply issuing
      apply issues_list_bind trivial
      intro fresh _
      split
      · trivial
      · apply Issues.mapError
        rw [protectedMarkerKey_eq]
        apply issues_request
        · apply proper_put
          trivial
        · simp
  | unprotect refName ttl =>
      apply ending
      apply issuing_managed
      apply issuing
      refine ⟨trivial, fun reply _ => ?_⟩
      rcases reply with error | gone
      · cases error <;> trivial
      · trivial
  | mark dryRun =>
      apply ending
      apply issuing
      apply issues_mark proper_reads
      intro runId markedAt record
      rw [tombstoneKey_eq]
      apply proper_put
      trivial
  | sweep opts =>
      apply ending
      apply issuing
      apply Ownership.issues_sweep_json proper_reads
      · exact fun _ => ⟨trivial, trivial⟩
      · exact fun _ _ => trivial
      · exact fun _ _ _ => trivial

end Programs

/-! ## Every schedule -/

section Schedules

variable
    [Platform]
    {packer : Packer}
    {objects : Objects}
    {contents : Contents}
    {bucketPrefix : Option Text}
    {plan : FaultPlan Call ObjectStoreError}
    {ι : Type}

theorem stored_empty (clock : Int) :
    Stored objects contents bucketPrefix (.empty clock) := by
  intro slot body found
  rw [World.body?_empty] at found
  cases found

/-- What is stored vouches for what honest commands write. -/
theorem vouches_stored
    (exact : packer.Exact objects contents) :
    (clients bucketPrefix plan ι).Vouches
      (Honest packer objects contents)
      (fun state => Stored objects contents bucketPrefix state.1)
      (Telling objects contents bucketPrefix)
      fun _ => Proper objects contents bucketPrefix where
  honest := fun _ request _ stored => telling_faulty request stored
  keeps := by
    intro _ _ request state proper stored
    change
      Stored objects contents bucketPrefix
        (faulty answer failed plan request state).2.1
    rcases bucket_faulty plan request state with same | same
    · rw [same]
      exact stored
    · rw [same]
      exact stored.call proper
  begin := fun _ _ stored => stored
  elapse := fun _ _ stored => stored
  prepare := fun _ honest => issuing_program exact honest
  work := fun _ task => task.elim

/-- Only honest commands are started. -/
def StartsHonest
    (packer : Packer)
    (objects : Objects)
    (contents : Contents) : CallProgram.Action ι Command → Prop
  | .start _ command => Honest packer objects contents command
  | _ => True

variable [DecidableEq ι]

theorem stored_of_reached
    (exact : packer.Exact objects contents)
    {clock : Int}
    {pool :
      Pool ι Command Call Reply Unit Empty (World × Nat)}
    (reached :
      (clients bucketPrefix plan ι).Reaches
        (fun pool action =>
          pool.Meets Ownership.Any action ∧
            StartsHonest packer objects contents action)
        (.quiet (.empty clock, 0)) pool) :
    Stored objects contents bucketPrefix pool.state.1 :=
  ((vouches_stored exact).holds (fun _ _ _ allowed => allowed.2)
    (fun _ _ allowed => allowed.1.interleaved) (stored_empty clock)
    reached).1

/--
Whatever honest clients of either engine and the collector have done, broken
off or failed at, every object that the tip of a stored chain reaches is in
some pack the chain names, if that pack is still there.  Every bundle has what
its name reaches, and every path index names what its own tip reaches.
-/
theorem closure_of_reached
    (exact : packer.Exact objects contents)
    {clock : Int}
    {pool :
      Pool ι Command Call Reply Unit Empty (World × Nat)}
    (reached :
      (clients bucketPrefix plan ι).Reaches
        (fun pool action =>
          pool.Meets Ownership.Any action ∧
            StartsHonest packer objects contents action)
        (.quiet (.empty clock, 0)) pool)
    (refName : RefName) :
    (∀ chain,
      pool.state.1.chain? bucketPrefix refName = some chain →
        ∀ sha ∈ objects.reach chain.tip,
          ∃ segment ∈ chain.segments, ∃ name,
            segment.pack = packKey none name ∧
              ∀ body,
                pool.state.1.body? (packKey bucketPrefix name) =
                    some body →
                  ∃ content found,
                    body = .file content ∧
                      contents.packObjects content = some found ∧
                        sha ∈ found) ∧
      (∀ tip body,
        pool.state.1.body? (bundleKey bucketPrefix refName tip) =
            some body →
          BundleBody objects contents tip body) ∧
      ∀ index,
        pool.state.1.body? (pathIndexKey bucketPrefix refName) =
            some (.pathIndex index) →
          Resolves objects index.tip index := by
  have stored := stored_of_reached exact reached
  refine ⟨?_, ?_, ?_⟩
  · intro chain found sha inside
    have written := ((World.chain?_eq_some_iff _ _).1 found).1
    rw [chainKey_eq] at written
    have linked := stored _ _ written chain rfl
    rcases Option.map_eq_some_iff.1 linked.complete.newest with
      ⟨newest, first, tip⟩
    rw [← tip] at inside
    rcases linked.complete.layered.covers first inside with
      ⟨segment, member, packed⟩
    rcases linked.canonical segment member with ⟨name, same⟩
    refine ⟨segment, member, name, same, fun body there => ?_⟩
    rw [packKey_eq] at there
    rcases stored _ _ there with ⟨rfl, readable⟩
    rcases Option.isSome_iff_exists.1 readable with ⟨objects, reads⟩
    refine ⟨_, objects, rfl, reads, ?_⟩
    rw [objectsOf_packKey same, Contents.packed, reads] at packed
    exact packed
  · intro tip body there
    rw [bundleKey_eq] at there
    exact stored _ _ there
  · intro index there
    rw [pathIndexKey_eq] at there
    exact stored _ _ there index rfl

end Schedules

/-! ## A broken lock and a lost reply -/

section Broken

attribute [local instance] Platform.simple

/-- The reply to the writing of the second chain is lost. -/
def lostChain : FaultPlan Call ObjectStoreError :=
  fun count _ => if count = 19 then some ⟨.network, true⟩ else none

/-- A push of one object of the small history, which locks at a time. -/
def pushAt (localSpec : Text) (now : Int) : Command :=
  .packchainPush smallRepo ⟨false, localSpec, .main⟩ 60 now

/--
A client stops with its chain written and its lock held.  Another one breaks
the lock, writes the next chain and is told that it failed.
-/
def brokenOff : List (CallProgram.Action Nat Command) :=
  .start 0 (pushAt ['a'] 0) :: Action.calls 0 9 ++
    .elapse 100 :: .start 1 (pushAt ['b'] 100) :: Action.calls 1 12

theorem startsHonest_brokenOff :
    ∀ action ∈ brokenOff,
      StartsHonest smallPacker smallObjects .digits action := by
  intro action listed
  cases action with
  | start client command =>
      have pushes :
          client = 0 ∧ command = pushAt ['a'] 0 ∨
            client = 1 ∧ command = pushAt ['b'] 100 := by
        simpa [brokenOff, Action.calls] using listed
      rcases pushes with ⟨-, rfl⟩ | ⟨-, rfl⟩
      · exact ⟨_, over_small⟩
      · exact ⟨_, over_small⟩
  | _ => trivial

theorem closure_of_reached_brokenOff :
    ∃ pool chain,
      (clients none lostChain Nat).schedule?
          (fun pool => pool.Meets Ownership.Any) brokenOff
          (.quiet (.empty 0, 0)) = some pool ∧
        pool.state.1.chain? none .main = some chain ∧
        firstDigits (chain.segments.map ChainSegment.sha) =
          ['b', 'a'] ∧
        ∀ sha ∈ smallObjects.reach chain.tip,
          ∃ segment ∈ chain.segments, ∃ name,
            segment.pack = packKey none name ∧
              ∀ body,
                pool.state.1.body? (packKey none name) = some body →
                  ∃ content found,
                    body = .file content ∧
                      Contents.digits.packObjects content =
                          some found ∧
                        sha ∈ found := by
  have executed :
      ((clients none lostChain Nat).schedule?
          (fun pool => pool.Meets Ownership.Any) brokenOff
          (.quiet (.empty 0, 0))).bind
        (fun pool =>
          (pool.state.1.chain? none .main).map fun chain =>
            firstDigits (chain.segments.map ChainSegment.sha)) =
        some ['b', 'a'] := by
    decide +kernel
  rcases Option.bind_eq_some_iff.1 executed with ⟨pool, reached, known⟩
  rcases Option.map_eq_some_iff.1 known with ⟨chain, found, segments⟩
  exact
    ⟨pool, chain, reached, found, segments,
      (closure_of_reached (exact_checked smallObjects smallBound)
        (System.Reaches.refl.scheduled startsHonest_brokenOff reached)
        .main).1 chain found⟩

end Broken

end GitRemoteObjectStore.Provenance
