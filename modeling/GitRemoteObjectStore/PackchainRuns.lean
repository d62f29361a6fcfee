import GitRemoteObjectStore.Operations
import GitRemoteObjectStore.Tombstones

/-!
# Fault-free runs of the packchain engine

What the git work of a packchain push establishes, and what its parts do to
the bucket when no other client acts and no call fails.
-/

namespace GitRemoteObjectStore.Packchain

open CallProgram Prog Separated

/-! ## Packs -/

section Packs

variable [Platform] (bucketPrefix : Option Text)

/-- The pack of a segment and its index are there. -/
def PackStored (world : World) (pack : Text) : Prop :=
  ∃ sha,
    pack = packKey none sha ∧
      (world.get? (packKey bucketPrefix sha)).isSome ∧
      (world.get? (packIdxKey bucketPrefix sha)).isSome

/-- A pack or an index. -/
def IsPackKey (key : Text) : Prop :=
  ∃ sha, key = packKey bucketPrefix sha ∨ key = packIdxKey bucketPrefix sha

variable {bucketPrefix}

theorem pack_not_under
    {refName : RefName}
    {key : Text}
    (pack : IsPackKey bucketPrefix key) :
    ¬ refListingPrefix bucketPrefix refName <+: key := by
  rcases pack with ⟨sha, rfl | rfl⟩
  · rw [packKey_eq, refListingPrefix_prefix_iff]
    exact fun under => under
  · rw [packIdxKey_eq, refListingPrefix_prefix_iff]
    exact fun under => under

end Packs

/-! ## The git work -/

/-- A commit tip and a commit descending from it, in one repository. -/
def Descends (repo : LocalRepo) (old new : Sha) : Prop :=
  ∃ oldCommit oldTags newCommit newTags,
    repo.peelTagChain old = .ok (.commit oldCommit oldTags) ∧
      repo.peelTagChain new = .ok (.commit newCommit newTags) ∧
      repo.isAncestor oldCommit newCommit = .ok true

/-- What the git work answers for a push that goes on. -/
structure GitReady
    (repo : LocalRepo)
    (localSpec : Text)
    (priorTip : Option Sha)
    (force : Bool)
    (found : LocalGit) : Prop where
  opened : repo.opened = .ok ()
  resolved : repo.resolve localSpec = some found.localSha
  peeled : repo.peelTagChain found.localSha = .ok found.peeled
  prior :
    priorCommitOf repo (PeeledTip.commit? found.peeled) priorTip force =
      .ok (.ok found.priorCommit)
  deep : crossesShallow repo (PeeledTip.commit? found.peeled) = .ok false

theorem localGitWorkPackchain_ok
    {repo : LocalRepo}
    {localSpec : Text}
    {priorTip : Option Sha}
    {force : Bool}
    {found : LocalGit} :
    localGitWorkPackchain repo localSpec priorTip force =
        .ok (.ok found) ↔
      GitReady repo localSpec priorTip force found := by
  rcases found with ⟨localSha, peeled, priorCommit⟩
  constructor
  · intro worked
    unfold localGitWorkPackchain at worked
    cases opened : repo.opened with
    | error error =>
        simp [opened, Bind.bind, Except.bind, Except.mapError] at worked
    | ok ready =>
    cases resolved : repo.resolve localSpec with
    | none =>
        simp [opened, resolved, Bind.bind, Except.bind, Except.mapError,
          Pure.pure, Except.pure] at worked
    | some tip =>
    cases peels : repo.peelTagChain tip with
    | error error =>
        simp [opened, resolved, peels, Bind.bind, Except.bind,
          Except.mapError] at worked
    | ok peeledTip =>
    cases answered :
        priorCommitOf repo (PeeledTip.commit? peeledTip) priorTip
          force with
    | error error =>
        simp [opened, resolved, peels, answered, Bind.bind, Except.bind,
          Except.mapError] at worked
    | ok outcome =>
    cases outcome with
    | error refusal =>
        simp [opened, resolved, peels, answered, Bind.bind, Except.bind,
          Except.mapError, Pure.pure, Except.pure] at worked
    | ok commit =>
    cases shallow :
        crossesShallow repo (PeeledTip.commit? peeledTip) with
    | error error =>
        simp [opened, resolved, peels, answered, shallow, Bind.bind,
          Except.bind, Except.mapError] at worked
    | ok crosses =>
        cases crosses with
        | true =>
            simp [opened, resolved, peels, answered, shallow, Bind.bind,
              Except.bind, Except.mapError, Pure.pure,
              Except.pure] at worked
        | false =>
            simp only [opened, resolved, peels, answered, shallow,
              Bind.bind, Except.bind, Except.mapError, Pure.pure,
              Except.pure, Bool.false_eq_true, if_false, Except.ok.injEq,
              LocalGit.mk.injEq] at worked
            rcases worked with ⟨rfl, rfl, rfl⟩
            exact ⟨opened, resolved, peels, answered, shallow⟩
  · rintro ⟨opened, resolved, peels, answered, deep⟩
    simp only at resolved peels answered deep
    simp [localGitWorkPackchain, opened, resolved, peels, answered, deep,
      Bind.bind, Except.bind, Except.mapError, Pure.pure, Except.pure]

/-- Without a prior chain there is no prior commit. -/
theorem priorCommitOf_none
    {repo : LocalRepo}
    {localCommit commit : Option Sha}
    {force : Bool}
    (found :
      priorCommitOf repo localCommit none force = .ok (.ok commit)) :
    commit = none := by
  simp only [priorCommitOf, Except.ok.injEq] at found
  exact found.symm

/-- A push that is not forced descends from the chain it was based on. -/
theorem priorCommitOf_some
    {repo : LocalRepo}
    {localCommit priorCommit : Option Sha}
    {prior : Sha}
    (found :
      priorCommitOf repo localCommit (some prior) false =
        .ok (.ok priorCommit)) :
    ∃ commit tags tip,
      localCommit = some tip ∧
        repo.peelTagChain prior = .ok (.commit commit tags) ∧
        repo.isAncestor commit tip = .ok true ∧
        priorCommit = some commit := by
  simp only [priorCommitOf] at found
  split at found
  next tip commit tags peels =>
      split at found
      · cases found
      next ancestor answered =>
          cases ancestor with
          | false => simp at found
          | true =>
              simp only [Bool.not_false, Bool.not_true, Bool.and_false,
                Bool.false_eq_true, if_false, Bool.and_self, if_true,
                Except.ok.injEq] at found
              exact ⟨commit, tags, tip, rfl, peels, answered, found.symm⟩
  all_goals simp at found

theorem PeeledTip.commit?_eq_some
    {peeled : PeeledTip}
    {commit : Sha}
    (found : PeeledTip.commit? peeled = some commit) :
    ∃ tags, peeled = .commit commit tags := by
  cases peeled with
  | commit other tags =>
      cases found
      exact ⟨tags, rfl⟩
  | tree tree tags => cases found
  | blob blob tags => cases found

theorem GitReady.descends
    {repo : LocalRepo}
    {localSpec : Text}
    {prior : Sha}
    {found : LocalGit}
    (ready : GitReady repo localSpec (some prior) false found) :
    Descends repo prior found.localSha := by
  rcases priorCommitOf_some ready.prior with
    ⟨commit, tags, tip, peelsLocal, peelsPrior, ancestor, -⟩
  rcases PeeledTip.commit?_eq_some peelsLocal with ⟨localTags, same⟩
  exact
    ⟨commit, tags, tip, localTags, peelsPrior,
      same ▸ ready.peeled, ancestor⟩

/-- The check of a forced push to a protected reference. -/
theorem currentTipIsAncestorOfLocal_true
    {repo : LocalRepo}
    {current localSha : Sha}
    (answered :
      currentTipIsAncestorOfLocal repo current localSha = .ok true) :
    Descends repo current localSha := by
  unfold currentTipIsAncestorOfLocal at answered
  cases opened : repo.opened with
  | error error =>
      simp [opened, Bind.bind, Except.bind, Except.mapError] at answered
  | ok ready =>
  cases peels : repo.peelTagChain localSha with
  | error error =>
      simp [opened, peels, Bind.bind, Except.bind,
        Except.mapError] at answered
  | ok peeled =>
  cases peeled with
  | tree tree tags =>
      simp [opened, peels, Bind.bind, Except.bind, Except.mapError,
        Pure.pure, Except.pure] at answered
  | blob blob tags =>
      simp [opened, peels, Bind.bind, Except.bind, Except.mapError,
        Pure.pure, Except.pure] at answered
  | commit localCommit localTags =>
      simp only [opened, peels, Bind.bind, Except.bind,
        Except.mapError] at answered
      split at answered
      next commit tags found =>
          cases ancestor : repo.isAncestor commit localCommit with
          | error error => simp [ancestor] at answered
          | ok decision =>
              simp only [ancestor, Except.ok.injEq] at answered
              subst answered
              exact
                ⟨commit, tags, localCommit, localTags, found, peels,
                  ancestor⟩
      all_goals simp [Pure.pure, Except.pure] at answered

/-- A pack without a baseline bundle extends a chain. -/
theorem buildPackAndBaseline_none
    {repo : LocalRepo}
    {localSha : Sha}
    {peeled : PeeledTip}
    {force : Bool}
    {priorCommit : Option Sha}
    {localSpec : Text}
    {pack : BuiltPack}
    (built :
      buildPackAndBaseline repo localSha peeled
          (packKindOf force priorCommit) localSpec =
        .ok (pack, none)) :
    force = false ∧ priorCommit.isSome := by
  cases priorCommit with
  | some commit =>
      cases force with
      | false => exact ⟨rfl, rfl⟩
      | true =>
          simp only [packKindOf, buildPackAndBaseline, Bind.bind,
            Except.bind] at built
          split at built
          · cases built
          · split at built <;> simp [Pure.pure, Except.pure] at built
  | none =>
      simp only [packKindOf, buildPackAndBaseline, Bind.bind,
        Except.bind] at built
      split at built
      · cases built
      · split at built <;> simp [Pure.pure, Except.pure] at built

/-! ## Listing -/

section Listing

variable [Platform] {bucketPrefix : Option Text}

omit [Platform] in
theorem refPathFromChainKey_eq_some
    {key refPath : Text} :
    refPathFromChainKey bucketPrefix key = some refPath ↔
      key = join bucketPrefix (refPath ++ lit "/chain.json") := by
  unfold refPathFromChainKey
  rw [join_eq]
  cases found : stripSuffix (lit "/chain.json") key with
  | none =>
      simp only [reduceCtorEq, false_iff]
      rintro rfl
      have shape :
          keyRoot bucketPrefix ++ (refPath ++ lit "/chain.json") =
            (keyRoot bucketPrefix ++ refPath) ++ lit "/chain.json" := by
        simp
      rw [shape, stripSuffix_eq_some.2 rfl] at found
      cases found
  | some stem =>
      have shape := stripSuffix_eq_some.1 found
      simp only [relativeKey_eq_some]
      constructor
      · rintro rfl
        rw [shape]
        simp
      · intro same
        rw [shape, ← List.append_assoc] at same
        exact List.append_cancel_right same

theorem chainCandidate_eq_some
    {entry : ObjectMeta}
    {key refPath : Text}
    {modified : Int} :
    chainCandidate bucketPrefix entry = some (key, refPath, modified) ↔
      entry = ⟨key, modified⟩ ∧
        ∃ refName : RefName,
          refName.text = refPath ∧
            key = chainKey bucketPrefix refName := by
  rcases entry with ⟨entryKey, entryModified⟩
  unfold chainCandidate
  constructor
  · intro found
    split at found
    · split at found
      · cases found
      next path parsed =>
          split at found
          next valid =>
              cases found
              exact
                ⟨rfl, ⟨refPath, valid⟩, rfl,
                  refPathFromChainKey_eq_some.1 parsed⟩
          next => cases found
    · cases found
  · rintro ⟨same, refName, rfl, rfl⟩
    cases same
    have parsed :
        refPathFromChainKey bucketPrefix
            (chainKey bucketPrefix refName) =
          some refName.text :=
      refPathFromChainKey_eq_some.2 rfl
    have named :
        isChainJsonKey (chainKey bucketPrefix refName) = true := by
      rw [chainKey_eq, isChainJsonKey_chain]
    simp only [named, parsed, refName.valid, if_true]

/-- The line `listRefs` adds for a candidate. -/
def listedChain
    (world : World)
    (candidate : Text × Text × Int) : Option ChainRef :=
  match (world.body? candidate.1).map ChainManifest.fromJsonBytes with
  | some (.ok chain) => some ⟨chain.tip, candidate.2.1, candidate.2.2⟩
  | _ => none

/-- The lines `listRefs` returns, before they are sorted. -/
def listedChains
    (completion : Arrivals.Completion)
    (bucketPrefix : Option Text)
    (world : World) : List ChainRef :=
  (completion.arrange
    ((world.listing (join bucketPrefix (lit "refs/"))).filterMap
      (chainCandidate bucketPrefix))).filterMap (listedChain world)

theorem run_listRefs
    (completion : Arrivals.Completion)
    (world : World) :
    run answer (listRefs completion bucketPrefix) world =
      (.ok
          ((listedChains completion bucketPrefix world).insertionSort
            fun left right => right.lastModified ≤ left.lastModified),
        world) := by
  have folded :
      ∀ (candidates : List (Text × Text × Int)) (found : List ChainRef),
        candidates.foldl
            (fun found candidate =>
              found ++ (listedChain world candidate).toList) found =
          found ++ candidates.filterMap (listedChain world) := by
    intro candidates
    induction candidates with
    | nil => simp
    | cons candidate rest hypothesis =>
        intro found
        rw [List.foldl_cons, hypothesis]
        cases listed : listedChain world candidate with
        | none => simp [listed]
        | some line => simp [listed]
  unfold listRefs
  simp only [run_bind, run_mapError, Store.run_list, Except.mapError]
  rw [run_foldEach_pure fun found candidate =>
    found ++ (listedChain world candidate).toList]
  · simp only [folded, List.nil_append, listedChains]
    rfl
  · intro found candidate member
    rcases List.mem_filterMap.1 (Arrivals.Completion.mem_arrange.1 member)
      with ⟨entry, listed, parsed⟩
    rcases candidate with ⟨key, refPath, modified⟩
    rcases chainCandidate_eq_some.1 parsed with ⟨rfl, -⟩
    rcases World.mem_listing.1 listed with ⟨-, object, present, -⟩
    simp only [run_bind, run_attempt, Store.run_getBytes_present present,
      listedChain, World.body?, present, Option.map_some]
    cases ChainManifest.fromJsonBytes object.body <;> simp

/-- The lines name the references under `refs/` with their chains' tips. -/
theorem exists_line_iff
    (completion : Arrivals.Completion)
    {world : World}
    {refName : RefName}
    {sha : Sha40} :
    (∃ lines,
      (run answer (listRefs completion bucketPrefix) world).1 =
          .ok lines ∧
        ∃ line ∈ lines, line.refPath = refName.text ∧ line.sha = sha) ↔
      refName.UnderRefs ∧
        ∃ chain,
          world.chain? bucketPrefix refName = some chain ∧
            chain.tip = sha := by
  simp only [run_listRefs, Except.ok.injEq, exists_eq_left',
    List.mem_insertionSort, listedChains, List.mem_filterMap,
    Arrivals.Completion.mem_arrange]
  constructor
  · rintro ⟨line, ⟨⟨key, refPath, modified⟩, ⟨entry, member, parsed⟩,
      listed⟩, sameRef, rfl⟩
    rcases chainCandidate_eq_some.1 parsed with
      ⟨rfl, other, rfl, rfl⟩
    rcases World.mem_listing.1 member with ⟨begins, object, found, -⟩
    simp only [listedChain, World.body?, found, Option.map_some]
      at listed
    cases manifest : ChainManifest.fromJsonBytes object.body with
    | error error => simp [manifest] at listed
    | ok chain =>
        simp only [manifest, Option.some.injEq] at listed
        subst listed
        have same : other = refName := RefName.ext sameRef
        subst same
        constructor
        · rw [chainKey_eq] at begins
          exact refs_prefix_chain_iff.1 begins
        · refine ⟨chain, ?_, rfl⟩
          simp only [World.chain?, World.body?, found, Option.map_some,
            manifest, Except.toOption]
  · rintro ⟨under, chain, found, rfl⟩
    rcases (World.chain?_eq_some_iff _ _).1 found with ⟨body, version⟩
    rcases Option.map_eq_some_iff.1 body with ⟨object, present, -⟩
    refine
      ⟨⟨chain.tip, refName.text, object.lastModified⟩,
        ⟨⟨chainKey bucketPrefix refName, refName.text,
            object.lastModified⟩,
          ⟨⟨chainKey bucketPrefix refName, object.lastModified⟩, ?_,
            chainCandidate_eq_some.2 ⟨rfl, refName, rfl, rfl⟩⟩, ?_⟩, rfl,
        rfl⟩
    · apply World.mem_listing.2
      constructor
      · rw [chainKey_eq]
        exact refs_prefix_chain_iff.2 under
      · exact ⟨object, present, rfl⟩
    · have parsed := ChainManifest.fromJsonBytes_ok.2 ⟨rfl, version⟩
      simp only [listedChain, body, Option.map_some, parsed]

/-- `list` advertises a reference at a commit, however the reads end. -/
def Advertises
    (bucketPrefix : Option Text)
    (world : World)
    (refName : RefName)
    (sha : Sha40) : Prop :=
  ∀ completion, ∃ lines,
    (run answer (listRefs completion bucketPrefix) world).1 = .ok lines ∧
      ∃ line ∈ lines, line.refPath = refName.text ∧ line.sha = sha

/-- A reference under `refs/` is advertised at the tip of its chain. -/
theorem advertises_iff
    {world : World}
    {refName : RefName}
    {sha : Sha40} :
    Advertises bucketPrefix world refName sha ↔
      refName.UnderRefs ∧
        ∃ chain,
          world.chain? bucketPrefix refName = some chain ∧
            chain.tip = sha :=
  ⟨fun shown => (exists_line_iff .inOrder).1 (shown .inOrder),
    fun held completion => (exists_line_iff completion).2 held⟩

end Listing

/-! ## The writes of a push -/

section Commit

variable [Platform] {bucketPrefix : Option Text}

/-- The bucket once `FORMAT` and `HEAD` are there. -/
def formatted
    (bucketPrefix : Option Text)
    (ready : ReadyState)
    (world : World) : World :=
  (world.putIfAbsent (formatKey bucketPrefix)
      (.text (lit "packchain"))).putIfAbsent (headKey bucketPrefix)
    (.text ready.remoteRef.text)

/-- The bucket once the chain is written. -/
def chained
    (bucketPrefix : Option Text)
    (ready : ReadyState)
    (world : World) : World :=
  (formatted bucketPrefix ready world).put
    (chainKey bucketPrefix ready.remoteRef)
    (.chain (committedManifest ready))

/-- The bucket once the path index is written or dropped. -/
def indexed
    (bucketPrefix : Option Text)
    (remoteRef : RefName)
    (pathIndex : Option PathIndex)
    (world : World) : World :=
  match pathIndex with
  | some index =>
      world.put (pathIndexKey bucketPrefix remoteRef) (.pathIndex index)
  | none => world.remove (pathIndexKey bucketPrefix remoteRef)

/-- The bucket once the baseline a forced push supersedes is deferred. -/
def cleaned
    (bucketPrefix : Option Text)
    (ready : ReadyState)
    (world : World) : World :=
  match ready.force, ready.prior with
  | true, some prior =>
      if prior.fullAt = ready.localSha then world
      else world.tombstone bucketPrefix ready.remoteRef prior.fullAt
  | _, _ => world

/-- The bucket after all writes of a push. -/
def committed
    (bucketPrefix : Option Text)
    (ready : ReadyState)
    (pathIndex : Option PathIndex)
    (world : World) : World :=
  cleaned bucketPrefix ready
    (indexed bucketPrefix ready.remoteRef pathIndex
      (chained bucketPrefix ready world))

theorem run_writeOrDropPathIndex
    (remoteRef : RefName)
    (pathIndex : Option PathIndex)
    (world : World) :
    run answer (writeOrDropPathIndex bucketPrefix remoteRef pathIndex)
        world =
      (.ok (), indexed bucketPrefix remoteRef pathIndex world) := by
  unfold writeOrDropPathIndex indexed
  cases pathIndex with
  | some index => simp [run_mapError, Except.mapError]
  | none => simp [run_mapError, Except.mapError]

theorem run_commitPush
    (ready : ReadyState)
    (pathIndex : Option PathIndex)
    (world : World) :
    run answer (commitPush bucketPrefix ready pathIndex) world =
      (.ok (.ok ready.remoteRef),
        committed bucketPrefix ready pathIndex world) := by
  have commit :
      ∀ next : Program PushError PushOutcome,
        run answer
            (do
              let _ ←
                (Store.putIfAbsent (formatKey bucketPrefix)
                  (.text (lit "packchain"))).mapError PushError.store
              let _ ←
                (Store.putIfAbsent (headKey bucketPrefix)
                  (.text ready.remoteRef.text)).mapError PushError.store
              (writeChain bucketPrefix ready.remoteRef
                (committedManifest ready)).mapError PushError.packchain
              next)
            world =
          run answer next (chained bucketPrefix ready world) := by
    intro next
    simp only [run_bind, run_mapError, run_putIfAbsent, run_writeChain,
      Except.mapError, chained, formatted]
  unfold commitPush
  rw [commit, run_bind_ok (run_writeOrDropPathIndex _ _ _)]
  unfold committed cleaned
  cases ready.force with
  | false => rfl
  | true =>
      cases prior : ready.prior with
      | none => simp [forcePushBaselineCleanup]
      | some manifest =>
          simp [forcePushBaselineCleanup, run_bind,
            run_writeBaselineTombstoneBestEffort]

theorem slot?_indexed
    {remoteRef : RefName}
    {pathIndex : Option PathIndex}
    {world : World}
    {slot : Slot}
    (notIndex : slot ≠ .ref remoteRef .pathIndex) :
    (indexed bucketPrefix remoteRef pathIndex world).slot? bucketPrefix
        slot =
      world.slot? bucketPrefix slot := by
  unfold indexed
  rw [pathIndexKey_eq]
  cases pathIndex with
  | some index => rw [slot?_put, if_neg notIndex]
  | none => rw [slot?_remove, if_neg notIndex]

theorem slot?_cleaned
    {ready : ReadyState}
    {world : World}
    {slot : Slot}
    (notTombstone : ∀ runId, slot ≠ .baselineTombstone runId) :
    (cleaned bucketPrefix ready world).slot? bucketPrefix slot =
      world.slot? bucketPrefix slot := by
  unfold cleaned
  split
  · split
    · rfl
    · exact slot?_tombstone notTombstone
  · rfl

/-- The chain is the committed manifest. -/
theorem chain?_committed
    (ready : ReadyState)
    (pathIndex : Option PathIndex)
    (world : World) :
    (committed bucketPrefix ready pathIndex world).chain? bucketPrefix
        ready.remoteRef =
      some (committedManifest ready) := by
  have body :
      (committed bucketPrefix ready pathIndex world).slot? bucketPrefix
          (.ref ready.remoteRef .chain) =
        (chained bucketPrefix ready world).slot? bucketPrefix
          (.ref ready.remoteRef .chain) := by
    unfold committed
    rw [slot?_cleaned (by simp), slot?_indexed (by simp)]
  have same :
      (committed bucketPrefix ready pathIndex world).chain? bucketPrefix
          ready.remoteRef =
        (chained bucketPrefix ready world).chain? bucketPrefix
          ready.remoteRef := by
    unfold World.chain?
    rw [chainKey_eq]
    unfold World.slot? at body
    rw [body]
  rw [same]
  exact chain?_put_chain _ _ _ (nextManifest_v _ _ _ _)

/-! ## The locked section -/

/-- What the protection check answers a push. -/
def refusal
    (bucketPrefix : Option Text)
    (repo : LocalRepo)
    (ready : ReadyState)
    (current : Option ChainManifest)
    (world : World) : Except PushError Bool :=
  match
      ready.force &&
        (world.get?
          (protectedMarkerKey bucketPrefix ready.remoteRef)).isSome,
      current with
  | true, some chain =>
      (currentTipIsAncestorOfLocal repo chain.tip ready.localSha).map not
  | _, _ => .ok false

theorem run_forceRefused
    (repo : LocalRepo)
    (ready : ReadyState)
    (current : Option ChainManifest)
    (world : World) :
    run answer (forceRefused bucketPrefix repo ready current) world =
      (refusal bucketPrefix repo ready current world, world) := by
  unfold forceRefused refusal
  cases ready.force with
  | false => rfl
  | true =>
      simp only [if_true, run_bind, run_mapError, run_isProtected,
        Except.mapError, Bool.true_and]
      cases
          (world.get?
            (protectedMarkerKey bucketPrefix ready.remoteRef)).isSome with
      | false => rfl
      | true =>
          cases current with
          | none => rfl
          | some chain =>
              simp only [if_true, run_bind]
              cases
                  currentTipIsAncestorOfLocal repo chain.tip
                    ready.localSha with
              | error error => rfl
              | ok ancestor => rfl

/-- Whether the locked section goes on to write. -/
def Accepts
    (bucketPrefix : Option Text)
    (repo : LocalRepo)
    (ready : ReadyState)
    (pathIndex : Option PathIndex)
    (world : World) : Prop :=
  ∃ current,
    loadedChain
        (world.body? (chainKey bucketPrefix ready.remoteRef)) =
      .ok current ∧
    refusal bucketPrefix repo ready current world = .ok false ∧
    (ready.force = false →
      ready.prior.map ChainManifest.tip =
        current.map ChainManifest.tip) ∧
    pathIndexOf repo ready.localSha = .ok pathIndex

/-- A push writes everything and reports success, or writes nothing. -/
theorem run_performPushUnderLock
    (repo : LocalRepo)
    (ready : ReadyState)
    (world : World) :
    (∃ pathIndex,
      Accepts bucketPrefix repo ready pathIndex world ∧
        run answer (performPushUnderLock bucketPrefix repo ready) world =
          (.ok (.ok ready.remoteRef),
            committed bucketPrefix ready pathIndex world)) ∨
      ((∀ pathIndex, ¬ Accepts bucketPrefix repo ready pathIndex world) ∧
        ∃ outcome,
          (∀ remoteRef, outcome ≠ .ok (.ok remoteRef)) ∧
            run answer (performPushUnderLock bucketPrefix repo ready)
                world =
              (outcome, world)) := by
  unfold performPushUnderLock Accepts
  cases loaded :
      loadedChain
        (world.body? (chainKey bucketPrefix ready.remoteRef)) with
  | error error =>
      right
      constructor
      · rintro pathIndex ⟨current, same, -⟩
        cases same
      · refine
          ⟨.error (.packchain error), (fun _ same => by cases same), ?_⟩
        simp only [run_bind, run_mapError, run_loadChain, loaded,
          Except.mapError]
  | ok current =>
      have reading :
          ∀ next : Option ChainManifest → Program PushError PushOutcome,
            run answer
                ((loadChain bucketPrefix ready.remoteRef).mapError
                  PushError.packchain >>= next)
                world =
              run answer (next current) world := by
        intro next
        simp only [run_bind, run_mapError, run_loadChain, loaded,
          Except.mapError]
      rw [reading]
      cases checked : refusal bucketPrefix repo ready current world with
      | error error =>
          right
          constructor
          · rintro pathIndex ⟨_, same, notRefused, -⟩
            cases same
            rw [checked] at notRefused
            cases notRefused
          · refine ⟨.error error, (fun _ same => by cases same), ?_⟩
            simp [run_bind, run_forceRefused, checked]
      | ok refused =>
          have checking :
              ∀ next : Bool → Program PushError PushOutcome,
                run answer
                    (forceRefused bucketPrefix repo ready current >>=
                      next)
                    world =
                  run answer (next refused) world := by
            intro next
            simp only [run_bind, run_forceRefused, checked]
          rw [checking]
          cases refused with
          | true =>
              right
              constructor
              · rintro pathIndex ⟨_, same, notRefused, -⟩
                cases same
                rw [checked] at notRefused
                cases notRefused
              · exact ⟨_, (fun _ same => by cases same), rfl⟩
          | false =>
              simp only [Bool.false_eq_true, if_false]
              split
              next stale =>
                  right
                  constructor
                  · rintro pathIndex ⟨_, same, -, fresh, -⟩
                    cases same
                    simp only [Bool.and_eq_true, Bool.not_eq_true',
                      bne_iff_ne, ne_eq] at stale
                    exact stale.2 (fresh stale.1)
                  · exact ⟨_, (fun _ same => by cases same), rfl⟩
              next fresh =>
                  cases found : pathIndexOf repo ready.localSha with
                  | error error =>
                      right
                      constructor
                      · rintro pathIndex ⟨_, _, _, _, other⟩
                        cases other
                      · exact ⟨_, (fun _ same => by cases same), rfl⟩
                  | ok pathIndex =>
                      left
                      refine
                        ⟨pathIndex, ⟨current, rfl, checked, ?_, rfl⟩, ?_⟩
                      · intro unforced
                        simpa [unforced] using fresh
                      · exact run_commitPush ready pathIndex world

end Commit

/-! ## Whole pushes -/

section Push

variable [Platform] {bucketPrefix : Option Text}

/-- The bucket once the pack, its index and the baseline are uploaded. -/
def uploaded
    (bucketPrefix : Option Text)
    (remoteRef : RefName)
    (localSha : Sha)
    (built : BuiltPack × Option (List UInt8))
    (world : World) : World :=
  let packed :=
    (world.put (packKey bucketPrefix built.1.contentSha)
        (.file built.1.pack)).put
      (packIdxKey bucketPrefix built.1.contentSha) (.file built.1.idx)
  match built.2 with
  | none => packed
  | some bundle =>
      packed.put (bundleKey bucketPrefix remoteRef localSha)
        (.file bundle)

/-- The state a push carries into the lock. -/
def readyState
    (spec : PushSpec)
    (prior : Option ChainManifest)
    (found : LocalGit)
    (pack : BuiltPack) : ReadyState where
  remoteRef := spec.remoteRef
  localSha := found.localSha
  prior := prior
  packContentSha := pack.contentSha
  packBytes := pack.packBytes
  force := spec.force
  localSpec := spec.localSpec

/-- What a push has found that goes on past its git work. -/
structure Probed
    (bucketPrefix : Option Text)
    (repo : LocalRepo)
    (spec : PushSpec)
    (world : World)
    (prior : Option ChainManifest)
    (found : LocalGit) : Prop where
  named : spec.localSpec ≠ []
  loaded :
    loadedChain (world.body? (chainKey bucketPrefix spec.remoteRef)) =
      .ok prior
  git :
    GitReady repo spec.localSpec (prior.map ChainManifest.tip) spec.force
      found

/-- There is nothing to push. -/
def UpToDate
    (spec : PushSpec)
    (prior : Option ChainManifest)
    (found : LocalGit) : Prop :=
  spec.force = false ∧
    prior.map ChainManifest.tip = some found.localSha

instance
    (spec : PushSpec)
    (prior : Option ChainManifest)
    (found : LocalGit) :
    Decidable (UpToDate spec prior found) :=
  inferInstanceAs (Decidable (_ ∧ _))

/-- The pack a push that is not up to date builds. -/
def buildFor
    (repo : LocalRepo)
    (spec : PushSpec)
    (found : LocalGit) :
    Except PackchainError (BuiltPack × Option (List UInt8)) :=
  buildPackAndBaseline repo found.localSha found.peeled
    (packKindOf spec.force found.priorCommit) spec.localSpec

theorem run_uploadPackIdxBaseline
    (remoteRef : RefName)
    (localSha : Sha)
    (built : BuiltPack × Option (List UInt8))
    (world : World) :
    run answer
        (uploadPackIdxBaseline bucketPrefix remoteRef localSha built.1
          built.2)
        world =
      (.ok (), uploaded bucketPrefix remoteRef localSha built world) := by
  unfold uploadPackIdxBaseline uploaded
  simp only [run_bind, run_mapError, Store.run_putPath, Except.mapError]
  cases built.2 with
  | none => rfl
  | some bundle => rfl

/-- How a preparation ends once the git work has gone through. -/
theorem Probed.run
    {repo : LocalRepo}
    {spec : PushSpec}
    {world : World}
    {prior : Option ChainManifest}
    {found : LocalGit}
    (probed : Probed bucketPrefix repo spec world prior found) :
    run answer (preparePush bucketPrefix repo spec) world =
      if UpToDate spec prior found then
        (.ok (.done (.ok spec.remoteRef)), world)
      else
        match buildFor repo spec found with
        | .error error => (.error (.packchain error), world)
        | .ok built =>
            (.ok (.ready (readyState spec prior found built.1)),
              uploaded bucketPrefix spec.remoteRef found.localSha built
                world) := by
  unfold preparePush
  simp only [run_bind, run_mapError, run_loadChain, probed.loaded,
    Except.mapError, localGitWorkPackchain_ok.2 probed.git,
    Prog.ofExcept, run_done]
  by_cases upToDate : UpToDate spec prior found
  · have checked :
        (!spec.force &&
            prior.map ChainManifest.tip == some found.localSha) =
          true := by
      simp [upToDate.1, upToDate.2]
    rw [if_pos upToDate, if_pos checked]
    rfl
  · have checked :
        ¬ (!spec.force &&
            prior.map ChainManifest.tip == some found.localSha) =
          true := by
      simpa [UpToDate] using upToDate
    rw [if_neg upToDate, if_neg checked]
    unfold buildFor
    cases
        buildPackAndBaseline repo found.localSha found.peeled
          (packKindOf spec.force found.priorCommit) spec.localSpec with
    | error error => rfl
    | ok built =>
        simp only [mapError_done, done_bind, run_bind,
          run_uploadPackIdxBaseline]
        rfl

/-- A preparation that does not fail has probed the reference. -/
theorem probed_of_run
    {repo : LocalRepo}
    {spec : PushSpec}
    (named : spec.localSpec ≠ [])
    {world : World}
    {prepared : PrepareOutcome}
    (ran :
      (run answer (preparePush bucketPrefix repo spec) world).1 =
        .ok prepared) :
    (∃ message, prepared = .done (.error spec.remoteRef message)) ∨
      ∃ prior found,
        Probed bucketPrefix repo spec world prior found := by
  unfold preparePush at ran
  cases loaded :
      loadedChain
        (world.body? (chainKey bucketPrefix spec.remoteRef)) with
  | error error =>
      simp only [run_bind, run_mapError, run_loadChain, loaded,
        Except.mapError] at ran
      cases ran
  | ok prior =>
      cases worked :
          localGitWorkPackchain repo spec.localSpec
            (prior.map ChainManifest.tip) spec.force with
      | error error =>
          simp only [run_bind, run_mapError, run_loadChain, loaded,
            Except.mapError, worked, Prog.ofExcept, run_fail] at ran
          cases ran
      | ok probe =>
          rcases probe with refusal | found
          · left
            simp only [run_bind, run_mapError, run_loadChain, loaded,
              Except.mapError, worked, Prog.ofExcept, run_done] at ran
            cases ran
            cases refusal <;> exact ⟨_, rfl⟩
          · right
            exact
              ⟨prior, found, named, loaded,
                localGitWorkPackchain_ok.1 worked⟩

/-- The bucket after a push that has written its chain. -/
def pushed
    (bucketPrefix : Option Text)
    (ready : ReadyState)
    (built : BuiltPack × Option (List UInt8))
    (pathIndex : Option PathIndex)
    (world : World) : World :=
  (committed bucketPrefix ready pathIndex
      ((uploaded bucketPrefix ready.remoteRef ready.localSha built
        world).locked (lockKey bucketPrefix ready.remoteRef))).remove
    (lockKey bucketPrefix ready.remoteRef)

theorem chain?_pushed
    (ready : ReadyState)
    (built : BuiltPack × Option (List UInt8))
    (pathIndex : Option PathIndex)
    (world : World) :
    (pushed bucketPrefix ready built pathIndex world).chain? bucketPrefix
        ready.remoteRef =
      some (committedManifest ready) := by
  apply (World.chain?_eq_some_iff _ _).2
  rcases
      (World.chain?_eq_some_iff _ _).1
        (chain?_committed ready pathIndex
          ((uploaded bucketPrefix ready.remoteRef ready.localSha built
            world).locked (lockKey bucketPrefix ready.remoteRef))) with
    ⟨stored, version⟩
  refine ⟨?_, version⟩
  rw [chainKey_eq] at stored ⊢
  rw [← stored]
  unfold pushed
  rw [lockKey_eq]
  exact (slot?_remove _).trans (if_neg (by simp))

/-- What lets a push write its chain. -/
structure Succeeds
    (bucketPrefix : Option Text)
    (repo : LocalRepo)
    (ttl now : Int)
    (spec : PushSpec)
    (world : World)
    (prior : Option ChainManifest)
    (found : LocalGit)
    (built : BuiltPack × Option (List UInt8))
    (pathIndex : Option PathIndex) : Prop where
  probed : Probed bucketPrefix repo spec world prior found
  behind : ¬ UpToDate spec prior found
  builds : buildFor repo spec found = .ok built
  free :
    (uploaded bucketPrefix spec.remoteRef found.localSha built
        world).lockFree ttl now (lockKey bucketPrefix spec.remoteRef) =
      true
  accepts :
    Accepts bucketPrefix repo (readyState spec prior found built.1)
      pathIndex
      ((uploaded bucketPrefix spec.remoteRef found.localSha built
        world).locked (lockKey bucketPrefix spec.remoteRef))

theorem pushOne_named
    (repo : LocalRepo)
    (ttl now : Int)
    {spec : PushSpec}
    (named : spec.localSpec ≠ []) :
    pushOne bucketPrefix repo ttl now spec =
      (preparePush bucketPrefix repo spec >>= fun prepared =>
        match prepared with
        | .done outcome => pure outcome
        | .ready state =>
            underRefLock bucketPrefix state.remoteRef ttl now "pushing"
              (performPushUnderLock bucketPrefix repo state)) := by
  unfold pushOne
  exact if_neg named

/-- Only one path index can be the one a push accepts. -/
theorem Accepts.pathIndex
    {repo : LocalRepo}
    {ready : ReadyState}
    {pathIndex : Option PathIndex}
    {world : World}
    (accepts : Accepts bucketPrefix repo ready pathIndex world) :
    pathIndexOf repo ready.localSha = .ok pathIndex := by
  rcases accepts with ⟨_, _, _, _, found⟩
  exact found

/-- A push that succeeds has written all it writes. -/
theorem Succeeds.run
    {repo : LocalRepo}
    {ttl now : Int}
    {spec : PushSpec}
    {world : World}
    {prior : Option ChainManifest}
    {found : LocalGit}
    {built : BuiltPack × Option (List UInt8)}
    {pathIndex : Option PathIndex}
    (succeeds :
      Succeeds bucketPrefix repo ttl now spec world prior found built
        pathIndex) :
    run answer (pushOne bucketPrefix repo ttl now spec) world =
      (.ok (.ok spec.remoteRef),
        pushed bucketPrefix (readyState spec prior found built.1) built
          pathIndex world) := by
  have prepares := succeeds.probed.run
  rw [if_neg succeeds.behind, succeeds.builds] at prepares
  rw [pushOne_named repo ttl now succeeds.probed.named,
    run_bind_ok prepares]
  apply (run_underRefLock _ _ _ succeeds.free _ _).trans
  rcases
      @run_performPushUnderLock _ bucketPrefix repo
        (readyState spec prior found built.1)
        ((uploaded bucketPrefix spec.remoteRef found.localSha built
          world).locked (lockKey bucketPrefix spec.remoteRef)) with
    ⟨other, accepts, ran⟩ | ⟨rejects, -⟩
  · have same :=
      accepts.pathIndex.symm.trans succeeds.accepts.pathIndex
    cases same
    exact
      congrArg
        (fun ended =>
          (ended.1,
            ended.2.remove (lockKey bucketPrefix spec.remoteRef)))
        ran
  · exact absurd succeeds.accepts (rejects pathIndex)

/--
A push that reports success was up to date, or has written all it writes.
-/
theorem succeeds_of_run
    {repo : LocalRepo}
    {ttl now : Int}
    {spec : PushSpec}
    (named : spec.localSpec ≠ [])
    {world : World}
    {refName : RefName}
    (reported :
      (run answer (pushOne bucketPrefix repo ttl now spec) world).1 =
        .ok (.ok refName)) :
    ∃ prior found,
      Probed bucketPrefix repo spec world prior found ∧
        (UpToDate spec prior found ∨
          ∃ built pathIndex,
            Succeeds bucketPrefix repo ttl now spec world prior found
              built pathIndex) := by
  rw [pushOne_named repo ttl now named, run_bind] at reported
  cases ran : run answer (preparePush bucketPrefix repo spec) world with
  | mk outcome middle =>
      rw [ran] at reported
      cases outcome with
      | error error => cases reported
      | ok prepared =>
          have first :
              (run answer (preparePush bucketPrefix repo spec) world).1 =
                .ok prepared := by
            rw [ran]
          rcases probed_of_run named first with
            ⟨message, rfl⟩ | ⟨prior, found, probed⟩
          · cases reported
          · refine ⟨prior, found, probed, ?_⟩
            by_cases upToDate : UpToDate spec prior found
            · exact Or.inl upToDate
            · right
              have prepares := probed.run
              rw [if_neg upToDate, ran] at prepares
              cases builds : buildFor repo spec found with
              | error error =>
                  rw [builds] at prepares
                  cases prepares
              | ok built =>
                  rw [builds] at prepares
                  cases prepares
                  change
                    (run answer
                      (underRefLock bucketPrefix spec.remoteRef ttl now
                        "pushing"
                        (performPushUnderLock bucketPrefix repo
                          (readyState spec prior found built.1)))
                      (uploaded bucketPrefix spec.remoteRef found.localSha
                        built world)).1 = _ at reported
                  have free :
                      (uploaded bucketPrefix spec.remoteRef found.localSha
                          built world).lockFree ttl now
                          (lockKey bucketPrefix spec.remoteRef) =
                        true := by
                    by_contra taken
                    rw [run_underRefLock_contended _ _ _
                      (by simpa using taken)] at reported
                    cases reported
                  rw [run_underRefLock _ _ _ free] at reported
                  rcases
                      @run_performPushUnderLock _ bucketPrefix repo
                        (readyState spec prior found built.1)
                        ((uploaded bucketPrefix spec.remoteRef
                          found.localSha built world).locked
                          (lockKey bucketPrefix spec.remoteRef)) with
                    ⟨pathIndex, accepts, -⟩ | ⟨-, outcome, failed, ended⟩
                  · exact
                      ⟨built, pathIndex, probed, upToDate, builds, free,
                        accepts⟩
                  · rw [ended] at reported
                    exact absurd reported (failed refName)

end Push

end GitRemoteObjectStore.Packchain
