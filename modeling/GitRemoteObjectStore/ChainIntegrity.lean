import GitRemoteObjectStore.Interference
import GitRemoteObjectStore.PackchainRuns

/-!
# Integrity of a packchain reference

Clients push to, force, delete and compact one reference, interleaved at
single store calls, the locked sections excluding each other.  Packs are
never deleted by these operations.  A baseline bundle is: a deletion sweeps
every bundle but the one of the chain it finds, and a push that has uploaded
its bundle, or read the chain that names it, before that deletion still
commits afterwards.  Unless a schedule does that, the chain of the reference
names only objects that are there.
-/

namespace GitRemoteObjectStore.Packchain

open CallProgram Prog

section Clients

variable
    [Platform]
    (bucketPrefix : Option Text)
    (refName : RefName)

/-- Everything a manifest names is there. -/
structure Intact (world : World) (manifest : ChainManifest) : Prop where
  packs :
    ∀ segment ∈ manifest.segments,
      PackStored bucketPrefix world segment.pack
  baseline :
    (world.get? (bundleKey bucketPrefix refName manifest.fullAt)).isSome

/-- What is stored as `chain.json` is a manifest, and intact. -/
def ChainIntact (world : World) : Prop :=
  ∀ body,
    world.body? (chainKey bucketPrefix refName) = some body →
      ∃ manifest,
        body = .chain manifest ∧
          manifest.v = ChainManifest.schemaVersion ∧
          Intact bucketPrefix refName world manifest

variable {ι : Type}

/-- The manifest a push commits with a call. -/
def committedBy : Operation → Call → Option ChainManifest
  | .push _ _ _, .put key (.chain manifest) =>
      if key = chainKey bucketPrefix refName then some manifest else none
  | _, _ => none

/--
A push does not commit a manifest whose baseline bundle was deleted since the
push began.
-/
def CommitKeepsBaseline
    (client : ι)
    (operation : Operation)
    (request : Call)
    (state : Watched ι) : Prop :=
  ∀ manifest ∈ committedBy bucketPrefix refName operation request,
    bundleKey bucketPrefix refName manifest.fullAt ∉ state.lost client

instance
    (client : ι)
    (operation : Operation)
    (request : Call)
    (state : Watched ι) :
    Decidable
      (CommitKeepsBaseline bucketPrefix refName client operation request
        state) :=
  inferInstanceAs (Decidable (∀ _ ∈ _, _))

/-! ## What the clients do to each other -/

/-- What a client without the lock can rely on. -/
structure Keeps (client : ι) (state later : Watched ι) : Prop where
  packs :
    ∀ key, IsPackKey bucketPrefix key → state.Present key →
      later.Present key
  kept : ∀ key, state.Kept client key → later.Kept client key

/-- What the holder of the lock can rely on. -/
structure KeepsReference (client : ι) (state later : Watched ι) : Prop
    extends Keeps bucketPrefix client state later where
  chain :
    later.world.body? (chainKey bucketPrefix refName) =
      state.world.body? (chainKey bucketPrefix refName)
  bundles :
    ∀ sha, state.Present (bundleKey bucketPrefix refName sha) →
      later.Present (bundleKey bucketPrefix refName sha)

variable {bucketPrefix refName}

omit [Platform] in
theorem Keeps.refl (client : ι) (state : Watched ι) :
    Keeps bucketPrefix client state state :=
  ⟨fun _ _ present => present, fun _ kept => kept⟩

omit [Platform] in
theorem Keeps.trans
    {client : ι}
    {first second third : Watched ι}
    (left : Keeps bucketPrefix client first second)
    (right : Keeps bucketPrefix client second third) :
    Keeps bucketPrefix client first third :=
  ⟨fun key pack present => right.packs key pack (left.packs key pack present),
    fun key kept => right.kept key (left.kept key kept)⟩

theorem KeepsReference.refl (client : ι) (state : Watched ι) :
    KeepsReference bucketPrefix refName client state state :=
  ⟨.refl client state, rfl, fun _ present => present⟩

theorem KeepsReference.trans
    {client : ι}
    {first second third : Watched ι}
    (left : KeepsReference bucketPrefix refName client first second)
    (right : KeepsReference bucketPrefix refName client second third) :
    KeepsReference bucketPrefix refName client first third :=
  ⟨left.toKeeps.trans right.toKeeps, right.chain.trans left.chain,
    fun sha present => right.bundles sha (left.bundles sha present)⟩

variable (bucketPrefix refName ι)

/-- The contracts of the operations on one reference. -/
def integrity : Discipline ι Operation Call (Watched ι) where
  invariant := fun state => ChainIntact bucketPrefix refName state.world
  met := CommitKeepsBaseline bucketPrefix refName
  freeRely := Keeps bucketPrefix
  heldRely := KeepsReference bucketPrefix refName
  freeStep := fun _ _ state later =>
    ∀ client, KeepsReference bucketPrefix refName client state later
  heldStep := fun _ _ state later =>
    ∀ client, Keeps bucketPrefix client state later
  freeRely_refl := Keeps.refl
  freeRely_trans := fun _ _ _ _ left right => left.trans right
  heldRely_refl := KeepsReference.refl
  heldRely_trans := fun _ _ _ _ left right => left.trans right
  free_of_freeStep := fun _ other _ _ _ _ step => (step other).toKeeps
  held_of_freeStep := fun _ other _ _ _ _ step => step other
  free_of_heldStep := fun _ other _ _ _ _ step => step other

variable {bucketPrefix refName ι}

/-! ## Stable facts -/

omit [Platform] in
theorem PackStored.later
    {client : ι}
    {state later : Watched ι}
    {pack : Text}
    (stored : PackStored bucketPrefix state.world pack)
    (keeps : Keeps bucketPrefix client state later) :
    PackStored bucketPrefix later.world pack := by
  rcases stored with ⟨sha, name, present, presentIdx⟩
  exact
    ⟨sha, name, keeps.packs _ ⟨sha, Or.inl rfl⟩ present,
      keeps.packs _ ⟨sha, Or.inr rfl⟩ presentIdx⟩

theorem Intact.later
    {client : ι}
    {state later : Watched ι}
    {manifest : ChainManifest}
    (intact : Intact bucketPrefix refName state.world manifest)
    (keeps : Keeps bucketPrefix client state later)
    (baseline :
      later.Present (bundleKey bucketPrefix refName manifest.fullAt)) :
    Intact bucketPrefix refName later.world manifest :=
  ⟨fun segment member => (intact.packs segment member).later keeps,
    baseline⟩

/-- An unchanged chain stays intact. -/
theorem ChainIntact.later
    {client : ι}
    {state later : Watched ι}
    (intact : ChainIntact bucketPrefix refName state.world)
    (keeps : KeepsReference bucketPrefix refName client state later) :
    ChainIntact bucketPrefix refName later.world := by
  intro body found
  rw [keeps.chain] at found
  rcases intact body found with ⟨manifest, same, version, parts⟩
  exact
    ⟨manifest, same, version,
      parts.later keeps.toKeeps (keeps.bundles _ parts.baseline)⟩

/-- What a push needs for the manifest it is going to commit. -/
structure Backed
    (bucketPrefix : Option Text)
    (refName : RefName)
    (client : ι)
    (manifest : ChainManifest)
    (state : Watched ι) : Prop where
  packs :
    ∀ segment ∈ manifest.segments,
      PackStored bucketPrefix state.world segment.pack
  baseline :
    state.Kept client (bundleKey bucketPrefix refName manifest.fullAt)

theorem Backed.later
    {client : ι}
    {manifest : ChainManifest}
    {state later : Watched ι}
    (backed : Backed bucketPrefix refName client manifest state)
    (keeps : Keeps bucketPrefix client state later) :
    Backed bucketPrefix refName client manifest later :=
  ⟨fun segment member => (backed.packs segment member).later keeps,
    keeps.kept _ backed.baseline⟩

theorem Intact.backed
    {client : ι}
    {manifest : ChainManifest}
    {state : Watched ι}
    (intact : Intact bucketPrefix refName state.world manifest) :
    Backed bucketPrefix refName client manifest state :=
  ⟨intact.packs, Or.inl intact.baseline⟩

theorem Backed.intact
    {client : ι}
    {manifest : ChainManifest}
    {state : Watched ι}
    (backed : Backed bucketPrefix refName client manifest state)
    (notLost :
      bundleKey bucketPrefix refName manifest.fullAt ∉
        state.lost client) :
    Intact bucketPrefix refName state.world manifest :=
  ⟨backed.packs, backed.baseline.resolve_right notLost⟩

/-! ## Gentle calls -/

/-- Calls that leave the chain alone and delete no pack and no bundle. -/
def Gentle
    (bucketPrefix : Option Text)
    (refName : RefName)
    (request : Call) : Prop :=
  ¬ request.Writes (chainKey bucketPrefix refName) ∧
    ∀ sha,
      request ≠ .delete (packKey bucketPrefix sha) ∧
        request ≠ .delete (packIdxKey bucketPrefix sha) ∧
        request ≠ .delete (bundleKey bucketPrefix refName sha)

theorem Gentle.of_reads {request : Call} (reads : request.Reads) :
    Gentle bucketPrefix refName request := by
  cases request with
  | put key body => exact reads.elim
  | putIfAbsent key body => exact reads.elim
  | delete key => exact reads.elim
  | _ => exact ⟨fun writes => writes, fun sha => by simp⟩

variable [DecidableEq ι]

theorem Gentle.keeps
    {request : Call}
    (gentle : Gentle bucketPrefix refName request)
    (actor client : ι)
    (state : Watched ι) :
    KeepsReference bucketPrefix refName client state
      (Watched.watch actor request state).2 where
  packs := by
    rintro key ⟨sha, rfl | rfl⟩ present
    · exact present_answer (gentle.2 sha).1 present
    · exact present_answer (gentle.2 sha).2.1 present
  kept := fun key kept => kept.watch actor request
  chain := body?_answer_of_not_writes gentle.1 _
  bundles := fun sha present => present_answer (gentle.2 sha).2.2 present

/-- A stretch of gentle calls before the lock. -/
theorem safe_gentle_free
    {ε α : Type}
    {client : ι}
    {operation : Operation}
    (keeps : Watched ι → Prop)
    (stable :
      ∀ state later, Keeps bucketPrefix client state later →
        keeps state → keeps later)
    {program : Program ε α}
    (issues :
      Issues Call.Credible (Gentle bucketPrefix refName) program)
    {state : Watched ι}
    (holds : keeps state) :
    Safe ((integrity bucketPrefix refName ι).free client operation)
      (Watched.watch client) (fun _ later => keeps later) program
      state :=
  issues.safe (Watched.credible_watch client)
    (fun _ state gentle intact _ holds =>
      ⟨⟨ChainIntact.later intact (gentle.keeps client client state),
          fun other => gentle.keeps client other state⟩,
        stable _ _ (gentle.keeps client client state).toKeeps holds⟩)
    stable holds

/-- A stretch of gentle calls under the lock. -/
theorem safe_gentle_held
    {ε α : Type}
    {client : ι}
    {operation : Operation}
    (keeps : Watched ι → Prop)
    (stable :
      ∀ state later,
        KeepsReference bucketPrefix refName client state later →
          keeps state → keeps later)
    {program : Program ε α}
    (issues :
      Issues Call.Credible (Gentle bucketPrefix refName) program)
    {state : Watched ι}
    (holds : keeps state) :
    Safe ((integrity bucketPrefix refName ι).held client operation)
      (Watched.watch client) (fun _ later => keeps later) program
      state :=
  issues.safe (Watched.credible_watch client)
    (fun _ state gentle intact _ holds =>
      ⟨⟨ChainIntact.later intact (gentle.keeps client client state),
          fun other => (gentle.keeps client other state).toKeeps⟩,
        stable _ _ (gentle.keeps client client state) holds⟩)
    stable holds

/-! ## Pushes -/

/-! ## Preparations -/

/-- What a prepared push carries into the lock. -/
structure PushReady
    (bucketPrefix : Option Text)
    (refName : RefName)
    (client : ι)
    (ready : ReadyState)
    (state : Watched ι) : Prop where
  remoteRef : ready.remoteRef = refName
  backed :
    Backed bucketPrefix refName client (committedManifest ready) state

omit [DecidableEq ι] in
theorem PushReady.later
    {client : ι}
    {ready : ReadyState}
    {state later : Watched ι}
    (prepared : PushReady bucketPrefix refName client ready state)
    (keeps : Keeps bucketPrefix client state later) :
    PushReady bucketPrefix refName client ready later :=
  ⟨prepared.remoteRef, prepared.backed.later keeps⟩

omit [DecidableEq ι] in
/-- The manifest of a push names its pack and what the prior one names. -/
theorem backed_committedManifest
    {client : ι}
    {ready : ReadyState}
    {state : Watched ι}
    (pack :
      PackStored bucketPrefix state.world
        (packKey none ready.packContentSha))
    (prior :
      ∀ manifest, ready.prior = some manifest →
        Backed bucketPrefix refName client manifest state)
    (baseline :
      ready.force = true ∨ ready.prior = none →
        state.Kept client
          (bundleKey bucketPrefix refName ready.localSha)) :
    Backed bucketPrefix refName client (committedManifest ready) state := by
  by_cases root : ready.force = true ∨ ready.prior = none
  · unfold committedManifest
    rw [nextManifest_root _ _ _ _ root]
    refine ⟨fun segment member => ?_, baseline root⟩
    rw [List.mem_singleton.1 member]
    exact pack
  · rw [not_or, Bool.not_eq_true] at root
    rcases Option.ne_none_iff_exists'.1 root.2 with ⟨manifest, found⟩
    have based := prior manifest found
    unfold committedManifest
    rw [root.1, found]
    refine ⟨fun segment member => ?_, based.baseline⟩
    rcases List.mem_cons.1 member with rfl | inPrior
    · exact pack
    · exact based.packs segment inPrior

theorem gentle_put
    {slot : Slot}
    {body : Body}
    (notChain : slot ≠ .ref refName .chain) :
    Gentle bucketPrefix refName (.put (slot.key bucketPrefix) body) := by
  refine ⟨fun writes => notChain ?_, fun sha => by simp⟩
  simpa [Call.Writes] using (Eq.symm writes)

/-- One upload before the lock. -/
theorem safe_upload
    {client : ι}
    {operation : Operation}
    {slot : Slot}
    {content : List UInt8}
    (keeps : Watched ι → Prop)
    (stable :
      ∀ state later, Keeps bucketPrefix client state later →
        keeps state → keeps later)
    (notChain : slot ≠ .ref refName .chain)
    {state : Watched ι}
    (holds : keeps state) :
    Safe ((integrity bucketPrefix refName ι).free client operation)
      (Watched.watch client)
      (whenOk fun _ later =>
        keeps later ∧ later.Kept client (slot.key bucketPrefix) ∧
          (IsPackKey bucketPrefix (slot.key bucketPrefix) →
            later.Present (slot.key bucketPrefix)))
      (Store.putPath (slot.key bucketPrefix) content) state := by
  have gentle :
      Gentle bucketPrefix refName
        (.put (slot.key bucketPrefix) (.file content)) :=
    gentle_put notChain
  refine safe_putBytes ?_ ?_
  · intro written _ intact _
    exact
      ⟨ChainIntact.later intact (gentle.keeps client client written),
        fun other => gentle.keeps client other written⟩
  · intro written later changed _ _ more
    have present :=
      present_watch_put client (slot.key bucketPrefix)
        (.file content) written
    refine ⟨?_, ?_, ?_⟩
    · exact
        stable _ _ more
          (stable _ _ (gentle.keeps client client written).toKeeps
            (stable _ _ changed holds))
    · exact more.kept _ (Or.inl present)
    · exact fun pack => more.packs _ pack present

theorem safe_uploadPackIdxBaseline
    {client : ι}
    {operation : Operation}
    (keeps : Watched ι → Prop)
    (stable :
      ∀ state later, Keeps bucketPrefix client state later →
        keeps state → keeps later)
    (localSha : Sha)
    (pack : BuiltPack)
    (baselineBundle : Option (List UInt8))
    {state : Watched ι}
    (holds : keeps state) :
    Safe ((integrity bucketPrefix refName ι).free client operation)
      (Watched.watch client)
      (whenOk fun _ later =>
        keeps later ∧
          PackStored bucketPrefix later.world
            (packKey none pack.contentSha) ∧
          (baselineBundle ≠ none →
            later.Kept client (bundleKey bucketPrefix refName localSha)))
      (uploadPackIdxBaseline bucketPrefix refName localSha pack
        baselineBundle)
      state := by
  unfold uploadPackIdxBaseline
  simp only [packKey_eq bucketPrefix, packIdxKey_eq, bundleKey_eq]
  refine
    (safe_upload _ stable (by simp) holds).convert.andThen
      fun _ afterPack _ uploaded => ?_
  have packKeys :
      IsPackKey bucketPrefix
        ((Slot.pack pack.contentSha).key bucketPrefix) :=
    ⟨pack.contentSha, Or.inl (packKey_eq _ _).symm⟩
  have idxKeys :
      IsPackKey bucketPrefix
        ((Slot.idx pack.contentSha).key bucketPrefix) :=
    ⟨pack.contentSha, Or.inr (packIdxKey_eq _ _).symm⟩
  refine
    (safe_upload
      (fun later =>
        keeps later ∧
          later.Present ((Slot.pack pack.contentSha).key bucketPrefix))
      (fun _ _ changed both =>
        ⟨stable _ _ changed both.1, changed.packs _ packKeys both.2⟩)
      (by simp)
      ⟨uploaded.1, uploaded.2.2 packKeys⟩).convert.andThen
      fun _ afterIdx _ indexed => ?_
  have stored :
      PackStored bucketPrefix afterIdx.world
        (packKey none pack.contentSha) :=
    ⟨pack.contentSha, rfl,
      by simpa [Watched.Present] using indexed.1.2,
      by simpa [Watched.Present] using indexed.2.2 idxKeys⟩
  cases baselineBundle with
  | none =>
      refine safe_done fun later changed _ => ?_
      exact
        ⟨stable _ _ changed indexed.1.1, stored.later changed,
          fun absent => absurd rfl absent⟩
  | some bundle =>
      refine
        ((safe_upload
          (fun later =>
            keeps later ∧
              PackStored bucketPrefix later.world
                (packKey none pack.contentSha))
          (fun _ _ changed both =>
            ⟨stable _ _ changed both.1, both.2.later changed⟩)
          (by simp)
          ⟨indexed.1.1, stored⟩).convert).weaken ?_
      intro outcome later _ bundled
      cases outcome with
      | ok done =>
          exact
            ⟨bundled.1.1, bundled.1.2, fun _ => bundled.2.1⟩
      | error error => trivial

/-- The chain a preparation reads is intact when it is read. -/
theorem safe_readChain
    {client : ι}
    {operation : Operation}
    {state : Watched ι} :
    Safe ((integrity bucketPrefix refName ι).free client operation)
      (Watched.watch client)
      (whenOk fun prior later =>
        ∀ manifest, prior = some manifest →
          Backed bucketPrefix refName client manifest later)
      (loadChain bucketPrefix refName) state := by
  refine safe_loadChain _ _ (fun state other => .refl other state) ?_
  intro found later _ intact _ changed _
  cases body : found.world.body? (chainKey bucketPrefix refName) with
  | none => exact fun _ same => by cases same
  | some stored =>
      rcases intact stored body with ⟨manifest, rfl, version, parts⟩
      have parsed := ChainManifest.fromJsonBytes_ok.2 ⟨rfl, version⟩
      simp only [loadedChain, parsed, Except.map]
      intro other same
      cases same
      exact parts.backed.later changed

/-- A push that goes on holds its pack and what its manifest is built on. -/
theorem safe_preparePush
    {client : ι}
    {operation : Operation}
    {state : Watched ι}
    (repo : LocalRepo)
    (force : Bool)
    (localSpec : Text) :
    Safe ((integrity bucketPrefix refName ι).free client operation)
      (Watched.watch client)
      (whenOk fun prepared later =>
        ∀ ready, prepared = .ready ready →
          PushReady bucketPrefix refName client ready later)
      (preparePush bucketPrefix repo ⟨force, localSpec, refName⟩)
      state := by
  unfold preparePush
  refine safe_readChain.convert.andThen fun prior read _ based => ?_
  refine Safe.check fun probe worked => ?_
  have stopped
      (outcome : PushOutcome)
      (state : Watched ι) :
      Safe ((integrity bucketPrefix refName ι).free client operation)
        (Watched.watch client)
        (whenOk fun prepared later =>
          ∀ ready, prepared = .ready ready →
            PushReady bucketPrefix refName client ready later)
        (.done (.done outcome) : Program PushError PrepareOutcome)
        state :=
    safe_done fun _ _ _ _ same => by cases same
  cases probe with
  | error refusal => exact stopped _ _
  | ok found =>
      simp only
      split
      · exact stopped _ _
      refine Safe.checkAs fun built builtOk => ?_
      refine
        (safe_uploadPackIdxBaseline
          (fun later =>
            ∀ manifest, prior = some manifest →
              Backed bucketPrefix refName client manifest later)
          (fun _ _ changed based manifest same =>
            (based manifest same).later changed)
          found.localSha built.1 built.2 based).andThen
          fun _ uploaded _ parts => ?_
      rcases parts with ⟨based, stored, bundled⟩
      have ready :
          PushReady bucketPrefix refName client
            { remoteRef := refName
              localSha := found.localSha
              prior := prior
              packContentSha := built.1.contentSha
              packBytes := built.1.packBytes
              force := force
              localSpec := localSpec }
            uploaded := by
        refine ⟨rfl, backed_committedManifest stored based ?_⟩
        intro root
        refine bundled fun absent => ?_
        rcases built with ⟨pack, bundle⟩
        cases absent
        rcases buildPackAndBaseline_none builtOk with
          ⟨notForced, incremental⟩
        have work := localGitWorkPackchain_ok.1 worked
        rcases root with forced | first
        · simp only at forced notForced
          rw [forced] at notForced
          cases notForced
        · simp only at first
          subst first
          rw [priorCommitOf_none work.prior] at incremental
          cases incremental
      refine safe_done fun later changed _ => ?_
      intro other same
      cases same
      exact ready.later changed

/-! ## Locked pushes -/

theorem gentle_reads (request : Call) (reads : request.Reads) :
    Gentle bucketPrefix refName request :=
  Gentle.of_reads reads

theorem gentle_putIfAbsent
    {slot : Slot}
    {body : Body}
    (notChain : slot ≠ .ref refName .chain) :
    Gentle bucketPrefix refName
      (.putIfAbsent (slot.key bucketPrefix) body) := by
  refine ⟨fun writes => notChain ?_, fun sha => by simp⟩
  simpa [Call.Writes] using (Eq.symm writes)

theorem gentle_baselineTombstone (runId : Component) (body : Body) :
    Gentle bucketPrefix refName
      (.put (baselineTombstoneKey (prefixText bucketPrefix) runId)
        body) := by
  rw [baselineTombstoneKey_eq]
  exact gentle_put (by simp)

theorem gentle_dropPathIndex :
    Gentle bucketPrefix refName
      (.delete ((Slot.ref refName .pathIndex).key bucketPrefix)) := by
  constructor
  · intro writes
    simp [Call.Writes] at writes
  · simp

/-- Writing an intact manifest under the lock. -/
theorem safe_writeChain
    {client : ι}
    {operation : Operation}
    {manifest : ChainManifest}
    {state : Watched ι}
    (version : manifest.v = ChainManifest.schemaVersion)
    (intact :
      ∀ written,
        KeepsReference bucketPrefix refName client state written →
        CommitKeepsBaseline bucketPrefix refName client operation
          (.put (chainKey bucketPrefix refName) (.chain manifest))
          written →
        Intact bucketPrefix refName written.world manifest) :
    Safe ((integrity bucketPrefix refName ι).held client operation)
      (Watched.watch client) (whenOk fun _ _ => True)
      (writeChain bucketPrefix refName manifest) state := by
  refine Safe.convert (safe_putBytes ?_ fun _ _ _ _ _ _ => trivial)
  intro written changed _ met
  have keeps (other : ι) :
      Keeps bucketPrefix other written
        (Watched.watch client
          (.put (chainKey bucketPrefix refName) (.chain manifest))
          written).2 :=
    ⟨fun _ _ present => present_answer (by simp) present,
      fun _ kept => kept.watch client _⟩
  refine ⟨?_, keeps⟩
  intro body found
  simp only [Watched.watch_world, answer, World.body?_put,
    if_true, Option.some.injEq] at found
  subst found
  have parts := intact written changed met
  exact
    ⟨manifest, rfl, version,
      parts.later (keeps client) (present_answer (by simp) parts.baseline)⟩

theorem safe_commitPush
    {client : ι}
    {pusher : LocalRepo}
    {force : Bool}
    {localSpec : Text}
    {ready : ReadyState}
    {state : Watched ι}
    (prepared : PushReady bucketPrefix refName client ready state)
    (pathIndex : Option PathIndex) :
    Safe
      ((integrity bucketPrefix refName ι).held client
        (.push pusher force localSpec))
      (Watched.watch client) (whenOk fun _ _ => True)
      (commitPush bucketPrefix ready pathIndex) state := by
  have stable :
      ∀ state later,
        KeepsReference bucketPrefix refName client state later →
        PushReady bucketPrefix refName client ready state →
          PushReady bucketPrefix refName client ready later :=
    fun _ _ changed prepared => prepared.later changed.toKeeps
  unfold commitPush
  rw [prepared.remoteRef]
  simp only [headKey_eq, formatKey_eq]
  refine
    (safe_gentle_held _ stable
      (issues_request (gentle_putIfAbsent (by simp))
        (by simp)).mapError prepared).keeping
      fun _ formatted _ prepared => ?_
  refine
    (safe_gentle_held _ stable
      (issues_request (gentle_putIfAbsent (by simp))
        (by simp)).mapError prepared).keeping
      fun _ headed _ prepared => ?_
  refine
    (safe_writeChain (nextManifest_v _ _ _ _) ?_).convert.andThen
      fun _ committed _ _ => ?_
  · intro written changed met
    exact (prepared.later changed.toKeeps).backed.intact
        (met _ (if_pos rfl))
  refine
    (safe_gentle_held (fun _ => True) (fun _ _ _ _ => trivial)
      (issues_writeOrDropPathIndex _ _ pathIndex
        (fun _ => gentle_put (by simp)) gentle_dropPathIndex)
      trivial).keeping
      fun _ indexed _ _ => ?_
  split
  · exact
      (safe_gentle_held (fun _ => True) (fun _ _ _ _ => trivial)
        (issues_forcePushBaselineCleanup gentle_reads _ _ _ _
          fun runId _ => gentle_baselineTombstone runId _)
        trivial).keeping
        fun _ _ _ _ => safe_end
  · exact safe_end

theorem safe_performPushUnderLock
    {client : ι}
    {repo pusher : LocalRepo}
    {force : Bool}
    {localSpec : Text}
    {ready : ReadyState}
    {state : Watched ι}
    (prepared : PushReady bucketPrefix refName client ready state) :
    Safe
      ((integrity bucketPrefix refName ι).held client
        (.push pusher force localSpec))
      (Watched.watch client) (whenOk fun _ _ => True)
      (performPushUnderLock bucketPrefix repo ready) state := by
  have stable :
      ∀ state later,
        KeepsReference bucketPrefix refName client state later →
        PushReady bucketPrefix refName client ready state →
          PushReady bucketPrefix refName client ready later :=
    fun _ _ changed prepared => prepared.later changed.toKeeps
  unfold performPushUnderLock
  refine
    (safe_gentle_held _ stable
      (issues_loadChain gentle_reads _ _).mapError prepared).keeping
      fun current loaded _ prepared => ?_
  refine
    (safe_gentle_held _ stable
      (issues_forceRefused gentle_reads _ repo ready current)
      prepared).keeping
      fun refused checked _ prepared => ?_
  split
  · exact safe_end
  split
  · exact safe_end
  refine Safe.checkAs fun pathIndex _ => ?_
  exact safe_commitPush prepared pathIndex

/-! ## Compaction -/

/-- One upload under the lock. -/
theorem safe_lockedUpload
    {client : ι}
    {operation : Operation}
    {slot : Slot}
    {content : List UInt8}
    (keeps : Watched ι → Prop)
    (stable :
      ∀ state later,
        KeepsReference bucketPrefix refName client state later →
        keeps state → keeps later)
    (notChain : slot ≠ .ref refName .chain)
    (kept :
      ∀ state later,
        KeepsReference bucketPrefix refName client state later →
        state.Present (slot.key bucketPrefix) →
          later.Present (slot.key bucketPrefix))
    {state : Watched ι}
    (holds : keeps state) :
    Safe ((integrity bucketPrefix refName ι).held client operation)
      (Watched.watch client)
      (whenOk fun _ later =>
        keeps later ∧ later.Present (slot.key bucketPrefix))
      (Store.putPath (slot.key bucketPrefix) content) state := by
  have gentle :
      Gentle bucketPrefix refName
        (.put (slot.key bucketPrefix) (.file content)) :=
    gentle_put notChain
  refine safe_putBytes ?_ ?_
  · intro written _ intact _
    exact
      ⟨ChainIntact.later intact (gentle.keeps client client written),
        fun other => (gentle.keeps client other written).toKeeps⟩
  · intro written later changed _ _ more
    refine ⟨?_, kept _ _ more (present_watch_put _ _ _ _)⟩
    exact
      stable _ _ more
        (stable _ _ (gentle.keeps client client written)
          (stable _ _ changed holds))

theorem safe_commitCompaction
    {client : ι}
    {operation : Operation}
    {state : Watched ι}
    (chain : ChainManifest)
    (built : BuiltPack × Option PathIndex × List UInt8) :
    Safe ((integrity bucketPrefix refName ι).held client operation)
      (Watched.watch client) (whenOk fun _ _ => True)
      (commitCompaction bucketPrefix refName chain built) state := by
  unfold commitCompaction
  simp only [packKey_eq bucketPrefix, packIdxKey_eq, bundleKey_eq]
  have packKeys :
      IsPackKey bucketPrefix
        ((Slot.pack built.1.contentSha).key bucketPrefix) :=
    ⟨_, Or.inl (packKey_eq _ _).symm⟩
  have idxKeys :
      IsPackKey bucketPrefix
        ((Slot.idx built.1.contentSha).key bucketPrefix) :=
    ⟨_, Or.inr (packIdxKey_eq _ _).symm⟩
  refine
    (safe_lockedUpload (fun _ => True) (fun _ _ _ _ => trivial)
      (by simp) (fun _ _ changed => changed.packs _ packKeys)
      trivial).convert.andThen fun _ _ _ pack => ?_
  refine
    (safe_lockedUpload
      (fun later =>
        later.Present ((Slot.pack built.1.contentSha).key bucketPrefix))
      (fun _ _ changed => changed.packs _ packKeys) (by simp)
      (fun _ _ changed => changed.packs _ idxKeys)
      pack.2).convert.andThen fun _ indexed _ idx => ?_
  have stored :
      PackStored bucketPrefix indexed.world
        (packKey none built.1.contentSha) :=
    ⟨_, rfl, by simpa [Watched.Present] using idx.1,
      by simpa [Watched.Present] using idx.2⟩
  refine
    (safe_lockedUpload
      (fun later =>
        PackStored bucketPrefix later.world
          (packKey none built.1.contentSha))
      (fun _ _ changed stored => stored.later changed.toKeeps) (by simp)
      (fun _ _ changed present => by
        simpa using changed.bundles chain.tip (by simpa using present))
      stored).convert.andThen fun _ _ _ bundled => ?_
  refine
    (safe_writeChain rfl fun written changed _ => ?_).andThen
      fun _ _ _ _ => ?_
  · refine ⟨fun segment member => ?_, ?_⟩
    · rw [List.mem_singleton.1 member]
      exact bundled.1.later changed.toKeeps
    · exact changed.bundles chain.tip (by simpa using bundled.2)
  refine
    (safe_gentle_held (fun _ => True) (fun _ _ _ _ => trivial)
      ?_ trivial).keeping fun _ _ _ _ => ?_
  · unfold writePathIndexIfAny writePathIndex
    rw [pathIndexKey_eq]
    cases built.2.1 with
    | some index =>
        exact
          (issues_request (gentle_put (by simp)) (by simp)).mapError
    | none => trivial
  exact
    (safe_gentle_held (fun _ => True) (fun _ _ _ _ => trivial)
      (issues_writeBaselineTombstoneBestEffort gentle_reads _ _ _ _
        fun _ _ => gentle_baselineTombstone _ _) trivial).keeping
      fun _ _ _ _ => safe_end

theorem safe_compactUnderLock
    {client : ι}
    {operation : Operation}
    {state : Watched ι}
    (scratch : Scratch) :
    Safe ((integrity bucketPrefix refName ι).held client operation)
      (Watched.watch client) (whenOk fun _ _ => True)
      (compactUnderLock bucketPrefix scratch refName) state := by
  unfold compactUnderLock
  refine
    (safe_gentle_held (fun _ => True) (fun _ _ _ _ => trivial)
      (issues_loadChain gentle_reads _ _) trivial).keeping
      fun found _ _ _ => ?_
  cases found with
  | none => exact safe_fail
  | some chain =>
      refine
        (safe_gentle_held (fun _ => True) (fun _ _ _ _ => trivial)
          (issues_downloadChainArtefacts gentle_reads _ _ _ chain)
          trivial).keeping fun directory _ _ _ => ?_
      exact Safe.check fun built _ => safe_commitCompaction chain built

/-! ## Deletions -/

/-- The bundle spared by a deletion is the present chain's. -/
def Spares
    (bucketPrefix : Option Text)
    (refName : RefName)
    (deferred : Option Text)
    (state : Watched ι) : Prop :=
  ∀ manifest,
    state.world.body? (chainKey bucketPrefix refName) =
        some (.chain manifest) →
      deferred = some (bundleKey bucketPrefix refName manifest.fullAt)

omit [DecidableEq ι] in
theorem Spares.later
    {client : ι}
    {deferred : Option Text}
    {state later : Watched ι}
    (spares : Spares bucketPrefix refName deferred state)
    (keeps : KeepsReference bucketPrefix refName client state later) :
    Spares bucketPrefix refName deferred later := by
  intro manifest found
  rw [keeps.chain] at found
  exact spares manifest found

/-- Gentle calls, and deletions under the reference sparing one bundle. -/
def Sweeping
    (bucketPrefix : Option Text)
    (refName : RefName)
    (deferred : Option Text)
    (request : Call) : Prop :=
  Gentle bucketPrefix refName request ∨
    ∃ key,
      request = .delete key ∧
        refListingPrefix bucketPrefix refName <+: key ∧
        deferred ≠ some key

theorem safe_sweeping
    {ε α : Type}
    {client : ι}
    {operation : Operation}
    {deferred : Option Text}
    {program : Program ε α}
    (issues :
      Issues Call.Credible (Sweeping bucketPrefix refName deferred)
        program)
    {state : Watched ι}
    (spares : Spares bucketPrefix refName deferred state) :
    Safe ((integrity bucketPrefix refName ι).held client operation)
      (Watched.watch client)
      (fun _ later => Spares bucketPrefix refName deferred later)
      program state := by
  refine
    issues.safe (Watched.credible_watch client) ?_
      (fun _ _ changed spares => Spares.later spares changed) spares
  rintro request state (gentle | ⟨key, rfl, under, different⟩) intact _
    spares
  · exact
      ⟨⟨ChainIntact.later intact (gentle.keeps client client state),
          fun other => (gentle.keeps client other state).toKeeps⟩,
        spares.later (gentle.keeps client client state)⟩
  · have keeps (other : ι) :
        Keeps bucketPrefix other state
          (Watched.watch client (.delete key) state).2 := by
      refine ⟨fun other pack present => ?_, fun _ kept => ?_⟩
      · refine present_answer (fun same => ?_) present
        cases same
        exact pack_not_under pack under
      · exact kept.watch client _
    -- either the chain itself is deleted, or it stays as it was
    by_cases chain : key = chainKey bucketPrefix refName
    · have gone :
          (Watched.watch client (.delete key) state).2.world.body?
              (chainKey bucketPrefix refName) = none := by
        subst chain
        exact body?_answer_delete _ _
      refine ⟨⟨fun body found => ?_, keeps⟩, fun manifest found => ?_⟩
      · rw [gone] at found
        cases found
      · rw [gone] at found
        cases found
    · have same :
          (Watched.watch client (.delete key) state).2.world.body?
              (chainKey bucketPrefix refName) =
            state.world.body? (chainKey bucketPrefix refName) :=
        body?_answer_of_not_writes
          (show ¬ Call.Writes (.delete key) _ from
            fun writes => chain (Eq.symm writes)) _
      refine ⟨⟨fun body found => ?_, keeps⟩, fun manifest found => ?_⟩
      · rw [same] at found
        rcases intact body found with ⟨manifest, rfl, version, parts⟩
        refine
          ⟨manifest, rfl, version, parts.later (keeps client) ?_⟩
        refine present_answer (fun deleted => ?_) parts.baseline
        cases deleted
        exact different (spares manifest found)
      · rw [same] at found
        exact spares manifest found

/-- A listing of the reference, with the present chain's bundle. -/
structure Listed
    (bucketPrefix : Option Text)
    (refName : RefName)
    (entries : List ObjectMeta)
    (state : Watched ι) : Prop where
  under :
    ∀ entry ∈ entries, refListingPrefix bucketPrefix refName <+: entry.key
  baseline :
    ∀ manifest,
      state.world.body? (chainKey bucketPrefix refName) =
          some (.chain manifest) →
        ∃ entry ∈ entries,
          entry.key = bundleKey bucketPrefix refName manifest.fullAt

omit [DecidableEq ι] in
theorem Listed.later
    {client : ι}
    {entries : List ObjectMeta}
    {state later : Watched ι}
    (listed : Listed bucketPrefix refName entries state)
    (keeps : KeepsReference bucketPrefix refName client state later) :
    Listed bucketPrefix refName entries later := by
  refine ⟨listed.under, fun manifest found => ?_⟩
  rw [keeps.chain] at found
  exact listed.baseline manifest found

theorem safe_list
    {client : ι}
    {operation : Operation}
    {state : Watched ι} :
    Safe ((integrity bucketPrefix refName ι).held client operation)
      (Watched.watch client)
      (whenOk fun entries later =>
        Listed bucketPrefix refName entries later)
      (Store.list (refListingPrefix bucketPrefix refName)) state := by
  intro found _ intact _
  have gentle :
      Gentle bucketPrefix refName
        (.list (refListingPrefix bucketPrefix refName)) :=
    gentle_reads _ trivial
  refine
    ⟨⟨ChainIntact.later intact (gentle.keeps client client found),
        fun other => (gentle.keeps client other found).toKeeps⟩, ?_⟩
  have listed :
      Listed bucketPrefix refName
        (found.world.listing (refListingPrefix bucketPrefix refName))
        (Watched.watch client
          (.list (refListingPrefix bucketPrefix refName)) found).2 := by
    refine ⟨fun entry member => (World.mem_listing.1 member).1, ?_⟩
    intro manifest present
    rcases intact _ present with ⟨_, same, _, parts⟩
    cases same
    refine World.exists_mem_listing.2 ⟨?_, parts.baseline⟩
    rw [bundleKey_eq, refListingPrefix_prefix_iff]
    exact Or.inl rfl
  exact fun later changed _ => listed.later changed

/-- A tombstone is written without fail. -/
theorem safe_writeTombstone
    {client : ι}
    {operation : Operation}
    {keeps : Watched ι → Prop}
    (stable :
      ∀ state later,
        KeepsReference bucketPrefix refName client state later →
        keeps state → keeps later)
    (orphanSha : Sha40)
    {state : Watched ι}
    (holds : keeps state) :
    Safe ((integrity bucketPrefix refName ι).held client operation)
      (Watched.watch client)
      (fun outcome later => outcome = .ok () ∧ keeps later)
      (writeBaselineTombstoneForOrphan bucketPrefix refName orphanSha)
      state := by
  have step
      {request : Call}
      (gentle : Gentle bucketPrefix refName request)
      {state found : Watched ι}
      (changed :
        KeepsReference bucketPrefix refName client state found)
      (intact : ChainIntact bucketPrefix refName found.world)
      (holds : keeps state) :
      (ChainIntact bucketPrefix refName
            (Watched.watch client request found).2.world ∧
          ∀ other,
            Keeps bucketPrefix other found
              (Watched.watch client request found).2) ∧
        keeps (Watched.watch client request found).2 :=
    ⟨⟨ChainIntact.later intact (gentle.keeps client client found),
        fun other => (gentle.keeps client other found).toKeeps⟩,
      stable _ _ (gentle.keeps client client found)
        (stable _ _ changed holds)⟩
  intro timed changed intact _
  rcases step (gentle_reads .nowUtc trivial) changed intact holds with
    ⟨kept, holds⟩
  refine ⟨kept, ?_⟩
  intro named changed intact _
  rcases step (gentle_reads .newUuid trivial) changed intact holds with
    ⟨kept, holds⟩
  refine ⟨kept, ?_⟩
  intro written changed intact _
  rcases step (gentle_baselineTombstone _ _) changed intact holds with
    ⟨kept, holds⟩
  refine ⟨kept, ?_⟩
  exact fun later changed _ => ⟨rfl, stable _ _ changed holds⟩

/-- The bundle of the chain read under the lock is the spared one. -/
theorem safe_tryWriteBaselineTombstone
    {ε : Type}
    {client : ι}
    {operation : Operation}
    {entries : List ObjectMeta}
    {state : Watched ι}
    (listed : Listed bucketPrefix refName entries state) :
    Safe ((integrity bucketPrefix refName ι).held client operation)
      (Watched.watch client)
      (whenOk fun deferred later =>
        Spares bucketPrefix refName deferred later)
      (tryWriteBaselineTombstone bucketPrefix refName entries :
        Program ε (Option Text))
      state := by
  have reading :
      Safe ((integrity bucketPrefix refName ι).held client operation)
        (Watched.watch client)
        (fun outcome later =>
          outcome =
              loadedChain
                (later.world.body? (chainKey bucketPrefix refName)) ∧
            Listed bucketPrefix refName entries later)
        (loadChain bucketPrefix refName) state := by
    refine
      safe_loadChain _ _ (fun state other => .refl other state)
        fun found later changed _ _ more _ => ?_
    exact
      ⟨by rw [KeepsReference.chain more],
        (listed.later changed).later more⟩
  unfold tryWriteBaselineTombstone
  refine reading.attempt.andThen fun outcome read intact known => ?_
  rcases known with ⟨same, listed⟩
  -- without a chain there is nothing to spare
  have nothing
      (absent :
        ∀ manifest,
          read.world.body? (chainKey bucketPrefix refName) ≠
            some (.chain manifest)) :
      Safe ((integrity bucketPrefix refName ι).held client operation)
        (Watched.watch client)
        (whenOk fun deferred later =>
          Spares bucketPrefix refName deferred later)
        (pure none : Program ε (Option Text)) read := by
    have spares : Spares bucketPrefix refName none read :=
      fun manifest found => absurd found (absent manifest)
    exact fun later changed _ => spares.later changed
  cases body : read.world.body? (chainKey bucketPrefix refName) with
  | none =>
      rw [body] at same
      subst same
      exact nothing fun manifest found => by rw [body] at found; cases found
  | some stored =>
      rcases intact stored body with ⟨chain, rfl, version, parts⟩
      have parsed := ChainManifest.fromJsonBytes_ok.2 ⟨rfl, version⟩
      rw [body] at same
      simp only [loadedChain, parsed, Except.map] at same
      subst same
      have found :
          (entries.any fun entry =>
            entry.key ==
              bundleKey bucketPrefix refName chain.fullAt) = true := by
        rcases listed.baseline chain body with ⟨entry, member, key⟩
        exact List.any_eq_true.2 ⟨entry, member, by simp [key]⟩
      simp only [found, if_true]
      have spares :
          Spares bucketPrefix refName
            (some (bundleKey bucketPrefix refName chain.fullAt))
            read := by
        intro manifest same
        rw [body] at same
        cases same
        rfl
      refine
        (safe_writeTombstone (fun _ _ changed spares =>
          Spares.later spares changed) chain.fullAt spares).attempt.andThen
          fun outcome written _ known => ?_
      rcases known with ⟨rfl, spares⟩
      exact fun later changed _ => spares.later changed

theorem Gentle.sweeping
    {deferred : Option Text}
    {request : Call}
    (gentle : Gentle bucketPrefix refName request) :
    Sweeping bucketPrefix refName deferred request :=
  Or.inl gentle

theorem safe_deleteUnderLock
    {client : ι}
    {operation : Operation}
    {state : Watched ι} :
    Safe ((integrity bucketPrefix refName ι).held client operation)
      (Watched.watch client) (whenOk fun _ _ => True)
      (deleteUnderLock bucketPrefix refName) state := by
  unfold deleteUnderLock
  refine
    (safe_gentle_held (fun _ => True) (fun _ _ _ _ => trivial)
      (Issues.attempt
        (issues_request
          (gentle_reads (.head (chainKey bucketPrefix refName)) trivial)
          fun _ => by simp))
      trivial).keeping fun outcome headed _ _ => ?_
  rcases outcome with error | found
  · cases error <;> first | exact safe_end | exact safe_fail
  refine safe_list.convert.andThen fun entries read _ listed => ?_
  split
  · exact safe_end
  refine
    (safe_tryWriteBaselineTombstone listed).andThen
      fun deferred tried _ spares => ?_
  refine
    (safe_sweeping (Issues.mapError (issues_forEach fun entry member => ?_))
      spares).keeping fun _ swept _ spares => ?_
  · split
    · exact trivial
    split
    · exact trivial
    next different =>
        exact
          issues_deleteIdempotent
            (Or.inr
              ⟨entry.key, rfl, listed.under entry member, different⟩)
  · exact
      (safe_sweeping
        (issues_verifyNoOrphanProtectedAfterDelete
          (fun request reads => (gentle_reads request reads).sweeping)
          _ _) spares).keeping fun _ _ _ _ => safe_end

theorem safe_deleteBranchUnderLock
    {client : ι}
    {operation : Operation}
    {state : Watched ι} :
    Safe ((integrity bucketPrefix refName ι).held client operation)
      (Watched.watch client) (whenOk fun _ _ => True)
      (deleteBranchUnderLock bucketPrefix refName) state := by
  unfold deleteBranchUnderLock
  refine safe_list.convert.andThen fun listedEntries read _ listed => ?_
  simp only
  split
  · exact safe_end
  split
  · exact safe_fail
  have fresh :
      Listed bucketPrefix refName
        (listedEntries.filter fun entry =>
          entry.key ≠ lockKey bucketPrefix refName) read := by
    refine ⟨fun entry member => ?_, fun manifest found => ?_⟩
    · exact listed.under entry (List.mem_of_mem_filter member)
    · rcases listed.baseline manifest found with ⟨entry, member, key⟩
      exact ⟨entry, List.mem_filter.2 ⟨member, by simp [key]⟩, key⟩
  refine
    (safe_tryWriteBaselineTombstone fresh).andThen
      fun deferred tried _ spares => ?_
  refine
    (safe_sweeping (issues_foldEach (fun undeleted entry member => ?_) [])
      spares).keeping fun undeleted swept _ spares => ?_
  · split
    · exact trivial
    next different =>
        refine
          issues_request
            (Or.inr
              ⟨entry.key, rfl, fresh.under entry member, different⟩)
            fun reply => ?_
        rcases reply with error | done
        · cases error <;> exact trivial
        · exact trivial
  · split
    · exact
        (safe_sweeping
          (issues_verifyNoOrphanProtectedAfterDelete
            (fun request reads => (gentle_reads request reads).sweeping)
            _ _) spares).keeping fun _ _ _ _ => safe_end
    · exact safe_fail

/-! ## Every schedule -/

/-- What a waiting client's task has been promised. -/
def Ready
    (bucketPrefix : Option Text)
    (refName : RefName)
    (client : ι)
    (operation : Operation)
    (task : Task)
    (state : Watched ι) : Prop :=
  match task with
  | .push _ ready =>
      (∃ repo force localSpec,
        operation = .push repo force localSpec) ∧
        PushReady bucketPrefix refName client ready state
  | _ => True

theorem safe_prepare
    (client : ι)
    (operation : Operation)
    (state : Watched ι) :
    Safe ((integrity bucketPrefix refName ι).free client operation)
      (Watched.watch client)
      (whenOk fun prepared later =>
        ∀ task, prepared = some task →
          Ready bucketPrefix refName client operation task later)
      (prepare bucketPrefix refName operation) state := by
  cases operation with
  | push repo force localSpec =>
      simp only [prepare]
      split
      · exact fun _ _ _ task same => by cases same; trivial
      refine (safe_preparePush repo force localSpec).attempt.andThen
        fun outcome prepared _ promised => ?_
      intro later changed _ task same
      cases outcome with
      | error error => cases same
      | ok outcome =>
          cases outcome with
          | done outcome => cases same
          | ready ready =>
              cases same
              exact
                ⟨⟨repo, force, localSpec, rfl⟩,
                  (promised ready rfl).later changed⟩
  | compact scratch force =>
      refine
        (safe_gentle_free (fun _ => True) (fun _ _ _ _ => trivial)
          (Issues.attempt (issues_prepareCompact gentle_reads _ _ force))
          trivial).keeping fun outcome _ _ _ => ?_
      intro later _ _ task same
      rcases outcome with _ | _ | _ <;> cases same
      trivial
  | deleteBranch confirmed =>
      refine
        (safe_gentle_free (fun _ => True) (fun _ _ _ _ => trivial)
          (Issues.attempt
            (issues_prepareDeleteBranch gentle_reads _ _ confirmed))
          trivial).keeping fun outcome _ _ _ => ?_
      intro later _ _ task same
      rcases outcome with _ | _ | _ <;> cases same
      trivial

theorem safe_work
    (client : ι)
    (operation : Operation)
    (task : Task)
    (state : Watched ι)
    (ready :
      Ready bucketPrefix refName client operation task state) :
    Safe ((integrity bucketPrefix refName ι).held client operation)
      (Watched.watch client) (fun _ _ => True)
      (work bucketPrefix refName task) state := by
  cases task with
  | push repo prepared =>
      rcases ready with ⟨⟨_, _, _, rfl⟩, promised⟩
      exact (safe_performPushUnderLock promised).toEffect
  | delete => exact safe_deleteUnderLock.toEffect
  | compact scratch => exact (safe_compactUnderLock scratch).toEffect
  | deleteBranch => exact safe_deleteBranchUnderLock.toEffect

/-- The operations on one reference keep to their contracts. -/
theorem follows_integrity :
    (clients bucketPrefix refName ι).Follows
      (integrity bucketPrefix refName ι)
      (Ready bucketPrefix refName) where
  ready_stable := by
    intro client operation task state later changed ready
    cases task with
    | push repo prepared => exact ⟨ready.1, ready.2.later changed⟩
    | _ => trivial
  begin := by
    intro client state intact
    refine ⟨intact, fun other different => ?_⟩
    have keeps :
        KeepsReference bucketPrefix refName other state
          (Watched.begin client state) :=
      ⟨⟨fun _ _ present => present,
          fun _ kept => kept.begin different.symm⟩, rfl,
        fun _ present => present⟩
    exact ⟨keeps.toKeeps, keeps⟩
  elapse := by
    intro duration state intact
    refine ⟨fun body found => ?_, fun client => ?_⟩
    · rcases intact body found with ⟨manifest, same, version, parts⟩
      exact
        ⟨manifest, same, version, ⟨parts.packs, parts.baseline⟩⟩
    have keeps :
        KeepsReference bucketPrefix refName client state
          (state.elapse duration) :=
      ⟨⟨fun _ _ present => present, fun _ kept => kept⟩, rfl,
        fun _ present => present⟩
    exact ⟨keeps.toKeeps, keeps⟩
  prepare := fun client operation state _ =>
    safe_prepare client operation _
  work := fun client operation task state _ ready =>
    safe_work client operation task state ready

/--
As long as no push commits a manifest whose baseline bundle was deleted since
the push began, everything the chain names is there.
-/
theorem chainIntact_of_reaches
    {clock : Int}
    {pool : Pool ι Operation Call Reply Unit Task (Watched ι)}
    (reached :
      (clients bucketPrefix refName ι).Reaches
        (fun pool =>
          pool.Meets (CommitKeepsBaseline bucketPrefix refName))
        (.quiet (.ofWorld (.empty clock))) pool) :
    ChainIntact bucketPrefix refName pool.state.world := by
  have start :
      (Pool.quiet (.ofWorld (.empty clock)) :
          Pool ι Operation Call Reply Unit Task (Watched ι)).Ok
        (clients bucketPrefix refName ι)
        (integrity bucketPrefix refName ι)
        (Ready bucketPrefix refName) :=
    Pool.ok_quiet fun body found => by
      simp [Watched.ofWorld] at found
  exact
    (reached.ok follows_integrity (fun _ _ allowed => allowed)
      start).invariant

end Clients

/-! ## Two schedules -/

section Schedules

attribute [local instance] Platform.simple

/-- The chain names a baseline bundle that is not there. -/
def lacksBaseline (world : World) : Bool :=
  match world.body? (chainKey none .main) with
  | some (.chain manifest) =>
      (world.get? (bundleKey none .main manifest.fullAt)).isNone
  | _ => false

theorem not_chainIntact_of_lacksBaseline
    {world : World}
    (lacks : lacksBaseline world = true) :
    ¬ ChainIntact none .main world := by
  intro intact
  unfold lacksBaseline at lacks
  split at lacks
  next manifest found =>
      rcases intact _ found with ⟨_, same, _, parts⟩
      cases same
      have absent := Option.isNone_iff_eq_none.1 lacks
      have present := parts.baseline
      rw [absent] at present
      cases present
  · cases lacks

/--
A push uploads its bundle; another client creates the reference and deletes
it; then the push commits.
-/
def deletedUnderPush : List (Action Nat Operation) :=
  .start 0 (.push .linear false ['a']) :: Action.calls 0 4 ++
    .settle 0 ::
    .start 1 (.push .linear false ['b']) :: Action.calls 1 4 ++
    .settle 1 :: .lock 1 :: Action.calls 1 5 ++
    .settle 1 ::
    .start 1 (.push .linear false []) ::
    .settle 1 :: .lock 1 :: Action.calls 1 10 ++
    .settle 1 ::
    .lock 0 :: Action.calls 0 5

/-- Without the condition the chain can lose its baseline bundle. -/
theorem not_chainIntact_of_reaches :
    ¬ ∀ pool,
      (clients none .main Nat).Reaches
        (fun pool => pool.Meets fun _ _ _ _ => True)
        (.quiet (.ofWorld (.empty 0))) pool →
      ChainIntact none .main pool.state.world := by
  intro always
  have executed :
      ((clients none .main Nat).schedule?
          (fun pool => pool.Meets fun _ _ _ _ => True)
          deletedUnderPush (.quiet (.ofWorld (.empty 0)))).map
        (fun pool => lacksBaseline pool.state.world) = some true := by
    decide +kernel
  rcases Option.map_eq_some_iff.1 executed with ⟨pool, reached, lacks⟩
  exact
    not_chainIntact_of_lacksBaseline lacks
      (always pool (System.Reaches.refl.schedule reached))

/-- A push, a forced push and a deletion beside another forced push. -/
def forcedAndDeleted : List (Action Nat Operation) :=
  .start 0 (.push .linear false ['a']) :: Action.calls 0 4 ++
    .settle 0 :: .lock 0 :: Action.calls 0 5 ++
    .settle 0 ::
    .start 1 (.push .linear true ['b']) :: Action.calls 1 4 ++
    .settle 1 :: .lock 1 :: Action.calls 1 9

theorem chainIntact_of_reaches_forced :
    ∃ pool,
      (clients none .main Nat).schedule?
          (fun pool => pool.Meets (CommitKeepsBaseline none .main))
          forcedAndDeleted (.quiet (.ofWorld (.empty 0))) = some pool ∧
        (pool.state.world.body? (chainKey none .main)).isSome ∧
        ChainIntact none .main pool.state.world := by
  have executed :
      ((clients none .main Nat).schedule?
          (fun pool => pool.Meets (CommitKeepsBaseline none .main))
          forcedAndDeleted (.quiet (.ofWorld (.empty 0)))).map
        (fun pool =>
          (pool.state.world.body? (chainKey none .main)).isSome) =
        some true := by
    decide +kernel
  rcases Option.map_eq_some_iff.1 executed with ⟨pool, reached, present⟩
  exact
    ⟨pool, reached, present,
      chainIntact_of_reaches (System.Reaches.refl.schedule reached)⟩

end Schedules

end GitRemoteObjectStore.Packchain
