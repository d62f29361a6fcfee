import GitRemoteObjectStore.Interference
import GitRemoteObjectStore.PackchainRuns

/-!
# Protected references

Clients push to, force, delete and compact one packchain reference, from any
bucket, interleaved at single store calls, the locked sections excluding each
other.  While the protection marker is there the reference stays listed, and
its commit only moves to descendants.  A push that is not forced was checked
against the chain it read, whose tip is compared again under the lock; a
forced one is checked under the lock, where the chain cannot change.
-/

namespace GitRemoteObjectStore.ProtectedRefs

open CallProgram Prog Packchain

section Clients

variable
    [Platform]
    (bucketPrefix : Option Text)
    (refName : RefName)
    {ι : Type}

/-- The protection marker is there. -/
def Guarded
    (_client : ι)
    (_operation : Operation)
    (_request : Call)
    (state : Watched ι) : Prop :=
  (state.world.get? (protectedMarkerKey bucketPrefix refName)).isSome

instance
    (client : ι)
    (operation : Operation)
    (request : Call)
    (state : Watched ι) :
    Decidable (Guarded bucketPrefix refName client operation request state) :=
  inferInstanceAs (Decidable (_ = true))

/-- The tip of a chain stays, or moves to a descendant. -/
def TipAdvances
    (operation : Operation)
    (state later : Watched ι) : Prop :=
  ∀ chain,
    state.world.chain? bucketPrefix refName = some chain →
      ∃ next,
        later.world.chain? bucketPrefix refName = some next ∧
          (next.tip = chain.tip ∨
            ∃ repo force localSpec,
              operation = .push repo force localSpec ∧
                Descends repo chain.tip next.tip)

/-- The object at `chain.json` is the same. -/
def SameChain (state later : Watched ι) : Prop :=
  later.world.body? (chainKey bucketPrefix refName) =
    state.world.body? (chainKey bucketPrefix refName)

/-- The contracts of the operations while the marker is there. -/
def protection (ι : Type) : Discipline ι Operation Call (Watched ι) where
  invariant := fun _ => True
  met := Guarded bucketPrefix refName
  freeRely := fun _ _ _ => True
  heldRely := fun _ => SameChain bucketPrefix refName
  freeStep := fun _ _ => SameChain bucketPrefix refName
  heldStep := fun _ => TipAdvances bucketPrefix refName
  freeRely_refl := fun _ _ => trivial
  freeRely_trans := fun _ _ _ _ _ _ => trivial
  heldRely_refl := fun _ _ => rfl
  heldRely_trans := fun _ _ _ _ left right => Eq.trans right left
  free_of_freeStep := fun _ _ _ _ _ _ _ => trivial
  held_of_freeStep := fun _ _ _ _ _ _ step => step
  free_of_heldStep := fun _ _ _ _ _ _ _ => trivial

variable {bucketPrefix refName}

theorem chain?_congr
    {state later : Watched ι}
    (same : SameChain bucketPrefix refName state later) :
    later.world.chain? bucketPrefix refName =
      state.world.chain? bucketPrefix refName := by
  unfold World.chain?
  rw [same]

theorem SameChain.tipAdvances
    {operation : Operation}
    {state later : Watched ι}
    (same : SameChain bucketPrefix refName state later) :
    TipAdvances bucketPrefix refName operation state later := by
  intro chain found
  rw [← chain?_congr same] at found
  exact ⟨chain, found, Or.inl rfl⟩

/-- Calls that leave `chain.json` alone. -/
def Aside
    (bucketPrefix : Option Text)
    (refName : RefName)
    (request : Call) : Prop :=
  ¬ request.Writes (chainKey bucketPrefix refName)

theorem aside_reads (request : Call) (reads : request.Reads) :
    Aside bucketPrefix refName request := by
  cases request with
  | put key body => exact reads.elim
  | putIfAbsent key body => exact reads.elim
  | delete key => exact reads.elim
  | _ => exact fun writes => writes

theorem aside_put
    {slot : Slot}
    {body : Body}
    (notChain : slot ≠ .ref refName .chain) :
    Aside bucketPrefix refName (.put (slot.key bucketPrefix) body) := by
  intro writes
  apply notChain
  simpa [Call.Writes] using (Eq.symm writes)

theorem aside_putIfAbsent
    {slot : Slot}
    {body : Body}
    (notChain : slot ≠ .ref refName .chain) :
    Aside bucketPrefix refName
      (.putIfAbsent (slot.key bucketPrefix) body) := by
  intro writes
  apply notChain
  simpa [Call.Writes] using (Eq.symm writes)

theorem aside_tombstone (runId : Component) (record) :
    Aside bucketPrefix refName
      (.put (baselineTombstoneKey (prefixText bucketPrefix) runId)
        (.baselineTombstone record)) := by
  rw [baselineTombstoneKey_eq]
  exact aside_put (by simp)

theorem aside_upload
    (slot : Slot)
    (content : List UInt8)
    (upload : IsUpload refName slot) :
    Aside bucketPrefix refName
      (.put (slot.key bucketPrefix) (.file content)) := by
  apply aside_put
  rintro rfl
  exact upload

variable [DecidableEq ι]

theorem Aside.sameChain
    {request : Call}
    (aside : Aside bucketPrefix refName request)
    (client : ι)
    (state : Watched ι) :
    SameChain bucketPrefix refName state
      (Watched.watch client request state).2 :=
  body?_answer_of_not_writes aside _

/-- Before the lock nothing writes the chain. -/
theorem safe_free
    {ε α : Type}
    {client : ι}
    {operation : Operation}
    {program : Program ε α}
    (issues :
      Issues Call.Credible (Aside bucketPrefix refName) program)
    {state : Watched ι} :
    Safe ((protection bucketPrefix refName ι).free client operation)
      (Watched.watch client) (fun _ _ => True) program state := by
  apply issues.safe (Watched.credible_watch client) _ _ trivial
  · intro request state aside _ _ _
    exact ⟨⟨trivial, aside.sameChain client state⟩, trivial⟩
  · intro _ _ _ _
    trivial

/-- Under the lock, what depends on the chain alone stays true. -/
theorem safe_held
    {ε α : Type}
    {client : ι}
    {operation : Operation}
    (keeps : Watched ι → Prop)
    (stable :
      ∀ state later, SameChain bucketPrefix refName state later →
        keeps state → keeps later)
    {program : Program ε α}
    (issues :
      Issues Call.Credible (Aside bucketPrefix refName) program)
    {state : Watched ι}
    (holds : keeps state) :
    Safe ((protection bucketPrefix refName ι).held client operation)
      (Watched.watch client) (fun _ later => keeps later) program
      state := by
  apply issues.safe (Watched.credible_watch client) _ stable holds
  intro request state aside _ _ holds
  have same := aside.sameChain client state
  exact ⟨⟨trivial, same.tipAdvances⟩, stable _ _ same holds⟩

/-! ## What the locked sections know -/

/-- The chain as `loadChain` returned it. -/
def IsCurrent
    (bucketPrefix : Option Text)
    (refName : RefName)
    (current : Option ChainManifest)
    (state : Watched ι) : Prop :=
  loadedChain (state.world.body? (chainKey bucketPrefix refName)) =
    .ok current

omit [DecidableEq ι] in
theorem IsCurrent.later
    {current : Option ChainManifest}
    {state later : Watched ι}
    (same : SameChain bucketPrefix refName state later)
    (known : IsCurrent bucketPrefix refName current state) :
    IsCurrent bucketPrefix refName current later := by
  unfold IsCurrent
  rw [same]
  exact known

omit [DecidableEq ι] in
theorem IsCurrent.of_chain?
    {current : Option ChainManifest}
    {state : Watched ι}
    {chain : ChainManifest}
    (known : IsCurrent bucketPrefix refName current state)
    (found : state.world.chain? bucketPrefix refName = some chain) :
    current = some chain := by
  unfold IsCurrent at known
  unfold World.chain? at found
  cases body : state.world.body? (chainKey bucketPrefix refName) with
  | none =>
      rw [body] at found
      cases found
  | some stored =>
      rw [body] at found known
      cases parsed : ChainManifest.fromJsonBytes stored with
      | error error =>
          simp only [parsed, Except.toOption] at found
          cases found
      | ok manifest =>
          simp only [parsed, Except.toOption, Option.some.injEq] at found
          simp only [loadedChain, parsed, Except.map,
            Except.ok.injEq] at known
          rw [← known, found]

/-- The chain read under the lock stays the present one. -/
theorem safe_loadCurrent
    {client : ι}
    {operation : Operation}
    {state : Watched ι} :
    Safe ((protection bucketPrefix refName ι).held client operation)
      (Watched.watch client)
      (whenOk fun current later =>
        IsCurrent bucketPrefix refName current later)
      (loadChain bucketPrefix refName) state := by
  apply safe_loadChain
  · intro state chain found
    exact ⟨chain, found, Or.inl rfl⟩
  · intro found later _ _ _ changed _
    cases loaded :
        loadedChain
          (found.world.body? (chainKey bucketPrefix refName)) with
    | error error => trivial
    | ok current => exact IsCurrent.later changed loaded

/-- Writing a manifest whose tip descends from the current one. -/
theorem safe_writeChain
    {client : ι}
    {operation : Operation}
    {manifest : ChainManifest}
    {current : Option ChainManifest}
    {state : Watched ι}
    (version : manifest.v = ChainManifest.schemaVersion)
    (known : IsCurrent bucketPrefix refName current state)
    (advances :
      ∀ chain, current = some chain →
        manifest.tip = chain.tip ∨
          ∃ repo force localSpec,
            operation = .push repo force localSpec ∧
              Descends repo chain.tip manifest.tip) :
    Safe ((protection bucketPrefix refName ι).held client operation)
      (Watched.watch client) (whenOk fun _ _ => True)
      (writeChain bucketPrefix refName manifest) state := by
  apply Safe.convert
  refine safe_putBytes ?_ fun _ _ _ _ _ _ => trivial
  intro written changed _ _
  constructor
  · trivial
  · intro chain found
    have same := (IsCurrent.later changed known).of_chain? found
    refine ⟨manifest, ?_, advances chain same⟩
    unfold World.chain?
    simp only [Watched.watch_world, answer, World.body?_put, if_true]
    rw [ChainManifest.fromJsonBytes_ok.2 ⟨rfl, version⟩]
    rfl

/-! ## Pushes -/

/-- What a prepared push was checked against. -/
structure PushChecked
    (refName : RefName)
    (operation : Operation)
    (repo : LocalRepo)
    (ready : ReadyState) : Prop where
  remoteRef : ready.remoteRef = refName
  pusher : ∃ force localSpec, operation = .push repo force localSpec
  descends :
    ready.force = false →
      ∀ prior, ready.prior = some prior →
        Descends repo prior.tip ready.localSha

theorem safe_preparePush
    {client : ι}
    {state : Watched ι}
    (repo : LocalRepo)
    (force : Bool)
    (localSpec : Text) :
    Safe
      ((protection bucketPrefix refName ι).free client
        (.push repo force localSpec))
      (Watched.watch client)
      (whenOk fun prepared _ =>
        ∀ ready, prepared = .ready ready →
          PushChecked refName (.push repo force localSpec) repo ready)
      (preparePush bucketPrefix repo ⟨force, localSpec, refName⟩)
      state := by
  unfold preparePush
  apply
    (safe_free (issues_loadChain aside_reads _ _).mapError).keeping
  intro prior read _ _
  apply Safe.check
  intro probe worked
  cases probe with
  | error refusal =>
      intro _ _ _ _ same
      cases same
  | ok found =>
      simp only
      split
      · intro _ _ _ _ same
        cases same
      apply Safe.checkAs
      intro built _
      apply
        (safe_free
          (issues_uploadPackIdxBaseline _ _ _ _ _ aside_upload)).keeping
      intro _ uploaded _ _ _ _ _ ready same
      cases same
      refine ⟨rfl, ⟨force, localSpec, rfl⟩, ?_⟩
      intro notForced manifest same
      simp only at notForced same
      subst notForced
      subst same
      exact (localGitWorkPackchain_ok.1 worked).descends

/-- A forced push that goes on descends from the current chain. -/
theorem safe_forceRefused
    {client : ι}
    {operation : Operation}
    (repo : LocalRepo)
    {ready : ReadyState}
    {current : Option ChainManifest}
    {state : Watched ι}
    (sameRef : ready.remoteRef = refName)
    (known : IsCurrent bucketPrefix refName current state) :
    Safe ((protection bucketPrefix refName ι).held client operation)
      (Watched.watch client)
      (whenOk fun refused later =>
        IsCurrent bucketPrefix refName current later ∧
          (refused = false → ready.force = true →
            ∀ chain, current = some chain →
              Descends repo chain.tip ready.localSha))
      (forceRefused bucketPrefix repo ready current) state := by
  unfold forceRefused
  rw [sameRef]
  split
  next forced =>
      have guarding :
          Safe ((protection bucketPrefix refName ι).held client operation)
            (Watched.watch client)
            (whenOk fun guarded later =>
              IsCurrent bucketPrefix refName current later ∧
                guarded = true)
            (isProtected bucketPrefix refName) state := by
        intro headed changed _ met
        rw [Watched.watch_head]
        constructor
        · exact
            ⟨trivial, fun chain found => ⟨chain, found, Or.inl rfl⟩⟩
        rcases Option.isSome_iff_exists.1 met with ⟨object, found⟩
        simp only [Watched.watch_reply, answer]
        rw [found]
        intro later more _
        exact ⟨(known.later changed).later more, rfl⟩
      apply guarding.convert.andThen
      rintro _ checked _ ⟨known, rfl⟩
      cases current with
      | none =>
          intro later changed _
          refine ⟨known.later changed, ?_⟩
          intro _ _ chain same
          cases same
      | some chain =>
          apply Safe.check
          intro ancestor answered later changed _
          refine ⟨known.later changed, ?_⟩
          intro allowed _ other same
          cases same
          cases ancestor with
          | false => cases allowed
          | true => exact currentTipIsAncestorOfLocal_true answered
  next unforced =>
      intro later changed _
      refine ⟨known.later changed, ?_⟩
      intro _ forced
      exact absurd forced unforced

omit [DecidableEq ι] in
theorem aside_dropPathIndex :
    Aside bucketPrefix refName
      (.delete ((Slot.ref refName .pathIndex).key bucketPrefix)) := by
  intro writes
  simp [Call.Writes] at writes

theorem safe_performPushUnderLock
    {client : ι}
    {operation : Operation}
    {repo : LocalRepo}
    {ready : ReadyState}
    {state : Watched ι}
    (checked : PushChecked refName operation repo ready) :
    Safe ((protection bucketPrefix refName ι).held client operation)
      (Watched.watch client) (whenOk fun _ _ => True)
      (performPushUnderLock bucketPrefix repo ready) state := by
  have stable (current : Option ChainManifest) :
      ∀ state later : Watched ι,
        SameChain bucketPrefix refName state later →
        IsCurrent bucketPrefix refName current state →
          IsCurrent bucketPrefix refName current later :=
    fun _ _ same known => known.later same
  have creating
      {slot : Slot}
      {content : Text}
      (notChain : slot ≠ .ref refName .chain) :
      Issues Call.Credible (Aside bucketPrefix refName)
        ((Store.putIfAbsent (slot.key bucketPrefix)
          (.text content)).mapError PushError.store) := by
    apply Issues.mapError
    apply issues_request (aside_putIfAbsent notChain)
    simp
  unfold performPushUnderLock
  rw [checked.remoteRef]
  apply safe_loadCurrent.convert.andThen
  intro current loaded _ known
  apply (safe_forceRefused repo checked.remoteRef known).andThen
  rintro refused examined _ ⟨known, forced⟩
  split
  · exact safe_end
  split
  · exact safe_end
  next notRefused notStale =>
      apply Safe.checkAs
      intro pathIndex _
      have advances :
          ∀ chain, current = some chain →
            Descends repo chain.tip ready.localSha := by
        intro chain same
        cases force : ready.force with
        | true => exact forced (by simpa using notRefused) force chain same
        | false =>
            -- the tips were compared, so the prior chain has this tip
            have tips :
                ready.prior.map ChainManifest.tip =
                  current.map ChainManifest.tip := by
              simpa [force] using notStale
            rw [same] at tips
            rcases Option.map_eq_some_iff.1 tips with
              ⟨prior, found, tip⟩
            rw [← tip]
            exact checked.descends force prior found
      unfold commitPush
      rw [checked.remoteRef, formatKey_eq, headKey_eq]
      apply
        (safe_held _ (stable current) (creating (by simp)) known).keeping
      intro _ formatted _ known
      apply
        (safe_held _ (stable current) (creating (by simp)) known).keeping
      intro _ headed _ known
      have writing :
          Safe
            ((protection bucketPrefix refName ι).held client operation)
            (Watched.watch client) (whenOk fun _ _ => True)
            (writeChain bucketPrefix refName (committedManifest ready))
            headed := by
        apply safe_writeChain (nextManifest_v _ _ _ _) known
        intro chain same
        rcases checked.pusher with ⟨force, localSpec, pushes⟩
        right
        refine ⟨repo, force, localSpec, pushes, ?_⟩
        show Descends repo chain.tip (committedManifest ready).tip
        rw [committedManifest, nextManifest_tip]
        exact advances chain same
      apply writing.convert.andThen
      intro _ committed _ _
      apply
        (safe_held (fun _ => True) (fun _ _ _ _ => trivial)
          (issues_writeOrDropPathIndex _ _ pathIndex
            (fun _ => aside_put (by simp)) aside_dropPathIndex)
          trivial).keeping
      intro _ indexed _ _
      split
      · apply
          (safe_held (fun _ => True) (fun _ _ _ _ => trivial)
            (issues_forcePushBaselineCleanup aside_reads _ _ _ _
              aside_tombstone)
            trivial).keeping
        intro _ _ _ _
        exact safe_end
      · exact safe_end

/-! ## Compactions -/

omit [DecidableEq ι] in
theorem issues_putFile
    {slot : Slot}
    {content : List UInt8}
    (notChain : slot ≠ .ref refName .chain) :
    Issues Call.Credible (Aside bucketPrefix refName)
      (Store.putPath (slot.key bucketPrefix) content) := by
  apply issues_request (aside_put notChain)
  simp

/-- A compaction keeps the tip. -/
theorem safe_compactUnderLock
    {client : ι}
    {operation : Operation}
    {state : Watched ι}
    (scratch : Scratch) :
    Safe ((protection bucketPrefix refName ι).held client operation)
      (Watched.watch client) (whenOk fun _ _ => True)
      (compactUnderLock bucketPrefix scratch refName) state := by
  unfold compactUnderLock
  apply safe_loadCurrent.andThen
  intro current loaded _ known
  cases current with
  | none => exact safe_fail
  | some chain =>
      have stable :
          ∀ state later : Watched ι,
            SameChain bucketPrefix refName state later →
            IsCurrent bucketPrefix refName (some chain) state →
              IsCurrent bucketPrefix refName (some chain) later :=
        fun _ _ same known => known.later same
      simp only
      apply
        (safe_held _ stable
          (issues_downloadChainArtefacts aside_reads _ _ _ _) known).keeping
      intro directory downloaded _ known
      apply Safe.check
      intro built _
      unfold commitCompaction
      simp only [packKey_eq, packIdxKey_eq, bundleKey_eq]
      have uploading
          {slot : Slot}
          {content : List UInt8}
          (notChain : slot ≠ .ref refName .chain)
          {state : Watched ι}
          (known :
            IsCurrent bucketPrefix refName (some chain) state) :
          Safe
            ((protection bucketPrefix refName ι).held client operation)
            (Watched.watch client)
            (fun _ later =>
              IsCurrent bucketPrefix refName (some chain) later)
            ((Store.putPath (slot.key bucketPrefix) content).mapError
              PackchainError.store)
            state :=
        safe_held _ stable (issues_putFile notChain).mapError known
      apply (uploading (by simp) known).keeping
      intro _ _ _ known
      apply (uploading (by simp) known).keeping
      intro _ _ _ known
      apply (uploading (by simp) known).keeping
      intro _ _ _ known
      have tip :
          ∀ other, some chain = some other →
            (compactedManifest chain built.1).tip = other.tip ∨
              ∃ repo force localSpec,
                operation = .push repo force localSpec ∧
                  Descends repo other.tip
                    (compactedManifest chain built.1).tip := by
        intro other same
        cases same
        exact Or.inl rfl
      apply (safe_writeChain rfl known tip).andThen
      intro _ committed _ _
      have finishing :
          Issues Call.Credible (Aside bucketPrefix refName)
            (writePathIndexIfAny bucketPrefix refName built.2.1) := by
        unfold writePathIndexIfAny writePathIndex
        rw [pathIndexKey_eq]
        cases built.2.1 with
        | none => trivial
        | some index =>
            apply Issues.mapError
            apply issues_request (aside_put (by simp))
            simp
      apply
        (safe_held (fun _ => True) (fun _ _ _ _ => trivial) finishing
          trivial).keeping
      intro _ _ _ _
      apply
        (safe_held (fun _ => True) (fun _ _ _ _ => trivial)
          (issues_writeBaselineTombstoneBestEffort aside_reads _ _ _ _
            aside_tombstone) trivial).keeping
      intro _ _ _ _
      exact safe_end

/-! ## Deletions -/

/-- A listing of the reference made while the marker is there has it. -/
theorem safe_listMarked
    {client : ι}
    {operation : Operation}
    {state : Watched ι} :
    Safe ((protection bucketPrefix refName ι).held client operation)
      (Watched.watch client)
      (whenOk fun entries _ =>
        ∃ entry ∈ entries,
          entry.key = protectedMarkerKey bucketPrefix refName)
      (Store.list (refListingPrefix bucketPrefix refName)) state := by
  intro found _ _ met
  have same :
      SameChain bucketPrefix refName found
        (Watched.watch client
          (.list (refListingPrefix bucketPrefix refName)) found).2 :=
    Aside.sameChain
      (aside_reads (.list (refListingPrefix bucketPrefix refName)) trivial)
      client found
  constructor
  · exact ⟨trivial, same.tipAdvances⟩
  · have listed :
        ∃ entry ∈
            found.world.listing (refListingPrefix bucketPrefix refName),
          entry.key = protectedMarkerKey bucketPrefix refName := by
      apply World.exists_mem_listing.2
      exact ⟨List.prefix_append _ _, met⟩
    exact fun _ _ _ => listed

/-- A protected reference is not deleted. -/
theorem safe_deleteUnderLock
    {client : ι}
    {operation : Operation}
    {state : Watched ι} :
    Safe ((protection bucketPrefix refName ι).held client operation)
      (Watched.watch client) (whenOk fun _ _ => True)
      (deleteUnderLock bucketPrefix refName) state := by
  have heading :
      Issues Call.Credible (Aside bucketPrefix refName)
        (Store.head (chainKey bucketPrefix refName)) := by
    apply
      issues_request
        (aside_reads (.head (chainKey bucketPrefix refName)) trivial)
    simp
  unfold deleteUnderLock
  apply
    (safe_held (fun _ => True) (fun _ _ _ _ => trivial)
      heading.attempt trivial).keeping
  intro outcome headed _ _
  cases outcome with
  | error error =>
      cases error with
      | notFound key => exact safe_end
      | _ => exact safe_fail
  | ok found =>
      apply safe_listMarked.convert.andThen
      rintro entries listed _ ⟨entry, member, marker⟩
      rw [entriesHaveProtectedMarker_of_mem member marker]
      exact safe_end

/-- A protected branch is not deleted. -/
theorem safe_deleteBranchUnderLock
    {client : ι}
    {operation : Operation}
    {state : Watched ι} :
    Safe ((protection bucketPrefix refName ι).held client operation)
      (Watched.watch client) (whenOk fun _ _ => True)
      (deleteBranchUnderLock bucketPrefix refName) state := by
  unfold deleteBranchUnderLock
  apply safe_listMarked.convert.andThen
  rintro entries listed _ ⟨entry, member, marker⟩
  have notLock : entry.key ≠ lockKey bucketPrefix refName := by
    rw [marker, protectedMarkerKey_eq, lockKey_eq]
    simp
  have fresh :
      entry ∈ entries.filter fun entry =>
        entry.key ≠ lockKey bucketPrefix refName :=
    List.mem_filter.2 ⟨member, decide_eq_true notLock⟩
  simp only
  split
  · exact safe_end
  · rw [if_pos (entriesHaveProtectedMarker_of_mem fresh marker)]
    exact safe_fail

/-! ## Every schedule -/

/-- What a waiting client's task has been promised. -/
def Ready
    (refName : RefName)
    (_client : ι)
    (operation : Operation)
    (task : Task)
    (_state : Watched ι) : Prop :=
  match task with
  | .push repo ready => PushChecked refName operation repo ready
  | _ => True

theorem safe_prepare
    (client : ι)
    (operation : Operation)
    (state : Watched ι) :
    Safe ((protection bucketPrefix refName ι).free client operation)
      (Watched.watch client)
      (whenOk fun prepared later =>
        ∀ task, prepared = some task →
          Ready refName client operation task later)
      (prepare bucketPrefix refName operation) state := by
  cases operation with
  | push repo force localSpec =>
      simp only [prepare]
      split
      · intro _ _ _ task same
        cases same
        trivial
      apply (safe_preparePush repo force localSpec).attempt.andThen
      intro outcome prepared _ checked later changed _ task same
      cases outcome with
      | error error => cases same
      | ok outcome =>
          cases outcome with
          | done outcome => cases same
          | ready ready =>
              cases same
              exact checked ready rfl
  | compact scratch force =>
      apply
        (safe_free (issues_prepareCompact aside_reads _ _ force).attempt
          ).keeping
      intro outcome _ _ _ _ _ _ task same
      rcases outcome with _ | _ | _ <;> cases same
      trivial
  | deleteBranch confirmed =>
      apply
        (safe_free
          (issues_prepareDeleteBranch aside_reads _ _ confirmed).attempt
          ).keeping
      intro outcome _ _ _ _ _ _ task same
      rcases outcome with _ | _ | _ <;> cases same
      trivial

theorem safe_work
    (client : ι)
    (operation : Operation)
    (task : Task)
    (state : Watched ι)
    (ready : Ready refName client operation task state) :
    Safe ((protection bucketPrefix refName ι).held client operation)
      (Watched.watch client) (fun _ _ => True)
      (work bucketPrefix refName task) state := by
  cases task with
  | push repo prepared => exact (safe_performPushUnderLock ready).toEffect
  | delete => exact safe_deleteUnderLock.toEffect
  | compact scratch => exact (safe_compactUnderLock scratch).toEffect
  | deleteBranch => exact safe_deleteBranchUnderLock.toEffect

/-- The operations on a protected reference keep to their contracts. -/
theorem follows_protection :
    (clients bucketPrefix refName ι).Follows
      (protection bucketPrefix refName ι)
      (Ready refName) where
  ready_stable := by
    intro client operation task state later _ ready
    cases task with
    | push repo prepared => exact ready
    | _ => trivial
  begin := fun _ _ _ => ⟨trivial, fun _ _ => ⟨trivial, rfl⟩⟩
  elapse := fun _ _ _ => ⟨trivial, fun _ => ⟨trivial, rfl⟩⟩
  prepare := fun client operation state _ =>
    safe_prepare client operation _
  work := fun client operation task state _ ready =>
    safe_work client operation task state ready

/-- A step leaves the chain alone or is a call that advances its tip. -/
theorem tipAdvances_of_step
    {pool next : Pool ι Operation Call Reply Unit Task (Watched ι)}
    {action : Action ι Operation}
    (ok :
      pool.Ok (clients bucketPrefix refName ι)
        (protection bucketPrefix refName ι) (Ready refName))
    (guarded : pool.Meets (Guarded bucketPrefix refName) action)
    (stepped : (clients bucketPrefix refName ι).Step pool action next) :
    SameChain bucketPrefix refName pool.state next.state ∨
      ∃ client operation request,
        action = .call client ∧
          (pool.phase client).nextCall? = some (operation, request) ∧
          TipAdvances bucketPrefix refName operation pool.state
            next.state := by
  cases stepped with
  | @prepareCall client operation request rest preparing =>
      left
      apply ok.call.1 rest preparing
      have next := guarded (operation, request)
      rw [preparing] at next
      exact next rfl
  | @workCall client operation request rest holding =>
      right
      refine ⟨client, operation, request, rfl, ?_, ?_⟩
      · rw [holding]
        rfl
      · apply ok.call.2 rest holding
        have next := guarded (operation, request)
        rw [holding] at next
        exact next rfl
  | atomic waiting free => exact guarded.elim
  | _ => exact Or.inl rfl

omit [DecidableEq ι] in
theorem advertises_unique
    {world : World}
    {first second : Sha40}
    (left : Advertises bucketPrefix world refName first)
    (right : Advertises bucketPrefix world refName second) :
    first = second := by
  rcases advertises_iff.1 left with
    ⟨_, chain, found, rfl⟩
  rcases advertises_iff.1 right with
    ⟨_, other, same, rfl⟩
  rw [found] at same
  cases same
  rfl

/--
While the marker is there, a listed reference stays listed, and only a call
of a push changes its commit, to a descendant by the pusher's repository.
-/
theorem advertised_of_step
    {start : World}
    {pool next : Pool ι Operation Call Reply Unit Task (Watched ι)}
    {action : Action ι Operation}
    {sha : Sha40}
    (reached :
      (clients bucketPrefix refName ι).Reaches
        (fun pool => pool.Meets (Guarded bucketPrefix refName))
        (.quiet (.ofWorld start)) pool)
    (guarded : pool.Meets (Guarded bucketPrefix refName) action)
    (stepped : (clients bucketPrefix refName ι).Step pool action next)
    (advertised :
      Advertises bucketPrefix pool.state.world refName sha) :
    (∃ tip, Advertises bucketPrefix next.state.world refName tip) ∧
      ∀ tip, Advertises bucketPrefix next.state.world refName tip →
        tip = sha ∨
          ∃ client repo force localSpec request,
            action = .call client ∧
              (pool.phase client).nextCall? =
                some (.push repo force localSpec, request) ∧
              Descends repo sha tip := by
  have ok :=
    reached.ok follows_protection (fun _ _ allowed => allowed)
      (Pool.ok_quiet trivial)
  rcases advertises_iff.1 advertised with
    ⟨under, chain, found, rfl⟩
  rcases tipAdvances_of_step ok guarded stepped with
    same | ⟨client, operation, request, called, calls, advances⟩
  · have kept :
        Advertises bucketPrefix next.state.world refName chain.tip := by
      apply advertises_iff.2
      refine ⟨under, chain, ?_, rfl⟩
      rw [chain?_congr same]
      exact found
    exact
      ⟨⟨_, kept⟩, fun tip listed => Or.inl (advertises_unique listed kept)⟩
  · rcases advances chain found with ⟨later, stored, moved⟩
    have listed :
        Advertises bucketPrefix next.state.world refName later.tip :=
      advertises_iff.2 ⟨under, later, stored, rfl⟩
    refine ⟨⟨_, listed⟩, ?_⟩
    intro tip other
    rw [advertises_unique other listed]
    rcases moved with same | ⟨repo, force, localSpec, rfl, descends⟩
    · exact Or.inl same
    · exact
        Or.inr
          ⟨client, repo, force, localSpec, request, called, calls,
            descends⟩

end Clients

/-! ## A schedule -/

section Schedules

attribute [local instance] Platform.simple

/-- A bucket with nothing but the marker. -/
def markedWorld : World :=
  (World.empty 0).put (protectedMarkerKey none .main) (.text [])

/-- A push, and a forced push up to the writing of its chain. -/
def forcedOnProtected : List (Action Nat Operation) :=
  .start 0 (.push .linear false ['a']) :: Action.calls 0 4 ++
    .settle 0 :: .lock 0 :: Action.calls 0 5 ++
    .settle 0 ::
    .start 1 (.push .linear true ['b']) :: Action.calls 1 4 ++
    .settle 1 :: .lock 1 :: Action.calls 1 4

theorem advertised_of_step_forced :
    ∃ pool next sha,
      (clients none .main Nat).schedule?
          (fun pool => pool.Meets (Guarded none .main))
          forcedOnProtected (.quiet (.ofWorld markedWorld)) =
        some pool ∧
      (clients none .main Nat).step? pool (.call 1) = some next ∧
      Advertises none pool.state.world .main sha ∧
      (∃ tip, Advertises none next.state.world .main tip) ∧
      ∀ tip, Advertises none next.state.world .main tip →
        tip = sha ∨
          ∃ client repo force localSpec request,
            (.call 1 : Action Nat Operation) = .call client ∧
              (pool.phase client).nextCall? =
                some (.push repo force localSpec, request) ∧
              Descends repo sha tip := by
  have executed :
      ((clients none .main Nat).schedule?
          (fun pool => pool.Meets (Guarded none .main))
          forcedOnProtected (.quiet (.ofWorld markedWorld))).map
        (fun pool =>
          (decide (pool.Meets (Guarded none .main) (.call 1)),
            ((clients none .main Nat).step? pool (.call 1)).map
              fun next =>
                next.state.world.chain? none .main !=
                  pool.state.world.chain? none .main,
            (pool.state.world.chain? none .main).map
              ChainManifest.tip)) =
        some (true, some true, some (digitSha 'a' hex_a)) := by
    decide +kernel
  rcases Option.map_eq_some_iff.1 executed with ⟨pool, reached, known⟩
  simp only [Prod.mk.injEq, decide_eq_true_eq] at known
  rcases known with ⟨guarded, stepped, tip⟩
  rcases Option.map_eq_some_iff.1 stepped with ⟨next, stepped, -⟩
  have under : RefName.main.UnderRefs :=
    ⟨lit "heads/main", by decide +kernel⟩
  have advertised :
      Advertises none pool.state.world .main
        (digitSha 'a' hex_a) := by
    apply advertises_iff.2
    rcases Option.map_eq_some_iff.1 tip with ⟨chain, found, tip⟩
    exact ⟨under, chain, found, tip⟩
  refine ⟨pool, next, _, reached, stepped, advertised, ?_⟩
  exact
    advertised_of_step (System.Reaches.refl.schedule reached) guarded
      (System.step_of_step? stepped) advertised

end Schedules

end GitRemoteObjectStore.ProtectedRefs
