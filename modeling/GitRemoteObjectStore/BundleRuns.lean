import GitRemoteObjectStore.BundlePush
import GitRemoteObjectStore.Tombstones

/-!
# Fault-free runs of the bundle engine

What a push, a deletion and a listing of the bundle engine return and leave
behind when no other client acts and no call fails.
-/

namespace GitRemoteObjectStore.Bundle

open CallProgram Prog

variable [Platform] {bucketPrefix : Option Text}

/-! ## Reading the visible bundles -/

/-- The entries `bundlesForRef` returns. -/
def visibleMetas
    (bucketPrefix : Option Text)
    (remoteRef : RefName)
    (hidden : List Text)
    (world : World) : List ObjectMeta :=
  ((world.listing (refListingPrefix bucketPrefix remoteRef)).filter
    fun entry => isBundleCandidate entry.key).filter
      fun entry => !hidden.contains entry.key

@[simp]
theorem run_bundlesForRef
    (remoteRef : RefName)
    (hidden : List Text)
    (world : World) :
    run answer (bundlesForRef bucketPrefix remoteRef hidden) world =
      (.ok (visibleMetas bucketPrefix remoteRef hidden world), world) := by
  simp [bundlesForRef, run_bind, visibleMetas]

omit [Platform] in
theorem filter_kerase
    (keep : Text → Bool)
    {key : Text}
    (dropped : keep key = false)
    (entries : List ((_ : Text) × Object)) :
    (entries.kerase key).filter (fun entry => keep entry.1) =
      entries.filter fun entry => keep entry.1 := by
  induction entries with
  | nil => rfl
  | cons entry rest hypothesis =>
      by_cases same : key = entry.1
      · subst same
        rw [List.kerase_cons_eq rfl, List.filter_cons_of_neg (by simp [dropped])]
      · rw [List.kerase_cons_ne same]
        simp only [List.filter_cons, hypothesis]

omit [Platform] in
theorem filter_listing_put
    {keep : Text → Bool}
    {key : Text}
    (dropped : keep key = false)
    (world : World)
    (body : Body)
    (start : Text) :
    ((world.put key body).listing start).filter
        (fun entry => keep entry.key) =
      (world.listing start).filter fun entry => keep entry.key := by
  simp only [World.listing, List.filter_map, List.filter_filter,
    World.put, AList.entries_insert, Function.comp_apply]
  congr 1
  have dropBoth :
      (keep key && start.isPrefixOf key) = false := by
    simp [dropped]
  rw [List.filter_cons_of_neg (by simp [dropped])]
  exact
    filter_kerase (fun key => keep key && start.isPrefixOf key)
      dropBoth _

omit [Platform] in
theorem filter_listing_remove
    {keep : Text → Bool}
    {key : Text}
    (dropped : keep key = false)
    (world : World)
    (start : Text) :
    ((world.remove key).listing start).filter
        (fun entry => keep entry.key) =
      (world.listing start).filter fun entry => keep entry.key := by
  simp only [World.listing, List.filter_map, List.filter_filter,
    World.remove, Function.comp_apply]
  congr 1
  exact
    filter_kerase (fun key => keep key && start.isPrefixOf key)
      (by simp [dropped]) _

/-- What is visible for the reference itself is among these entries. -/
theorem mem_visibleMetas_of_visible
    {world : World}
    {remoteRef : RefName}
    {sha : Sha40}
    (visible : world.Visible bucketPrefix remoteRef sha) :
    ∃ entry ∈ visibleMetas bucketPrefix remoteRef
        (hiddenKeys bucketPrefix world) world,
      entry.key = bundleKey bucketPrefix remoteRef sha := by
  rcases visible with ⟨present, shown⟩
  have listed :
      ∃ entry ∈ world.listing (refListingPrefix bucketPrefix remoteRef),
        entry.key = (Slot.ref remoteRef (.bundle sha)).key bucketPrefix :=
    World.exists_mem_listing.2
      ⟨refListingPrefix_prefix_iff.2
          (show (Slot.ref remoteRef (.bundle sha)).Under remoteRef from
            Or.inl rfl),
        by simpa [World.slot?, World.body?] using present⟩
  rcases listed with ⟨entry, member, sameKey⟩
  refine ⟨entry, ?_, by rw [sameKey, bundleKey_eq]⟩
  simp only [visibleMetas, List.mem_filter, member, true_and, sameKey,
    isBundleCandidate_slot, Slot.bundleSha, Option.isSome_some,
    Bool.not_eq_true', List.contains_eq_mem, decide_eq_false_iff_not]
  rw [← bundleKey_eq, bundleKey_mem_hiddenKeys]
  exact shown

/-! ## The writes of a push -/

/-- The bucket after the prior bundle was deferred. -/
def deferred
    (bucketPrefix : Option Text)
    (remoteRef : RefName)
    (prior : Text)
    (localSha : Sha)
    (world : World) : World :=
  match parseRemoteShaFromKey prior with
  | none => world.remove prior
  | some priorSha =>
      if priorSha = localSha then world.remove prior
      else world.tombstone bucketPrefix remoteRef priorSha

/-- The bucket once the bundle, `HEAD` and `FORMAT` are written. -/
def uploaded
    (bucketPrefix : Option Text)
    (state : PushReadyState)
    (world : World) : World :=
  ((world.put (bundleKey bucketPrefix state.remoteRef state.localSha)
        (.file state.bundle)).putIfAbsent (headKey bucketPrefix)
      (.text state.remoteRef.text)).putIfAbsent (formatKey bucketPrefix)
    (.text (lit "bundle"))

/-- The bucket once the prior bundle, if another one, is deferred. -/
def superseded
    (bucketPrefix : Option Text)
    (state : PushReadyState)
    (currentKey : Option Text)
    (world : World) : World :=
  match currentKey with
  | none => world
  | some prior =>
      if prior ≠ bundleKey bucketPrefix state.remoteRef state.localSha then
        deferred bucketPrefix state.remoteRef prior state.localSha world
      else world

/-- The bucket once the archive, if any, is uploaded. -/
def archived
    (bucketPrefix : Option Text)
    (state : PushReadyState)
    (world : World) : World :=
  match state.zipArtifacts with
  | none => world
  | some archive =>
      world.put (archiveKey bucketPrefix state.remoteRef) (.file archive)

/-- The bucket after all writes of a push. -/
def committed
    (bucketPrefix : Option Text)
    (state : PushReadyState)
    (currentKey : Option Text)
    (world : World) : World :=
  archived bucketPrefix state
    (superseded bucketPrefix state currentKey
      (uploaded bucketPrefix state world))

theorem run_deferPriorBundleViaTombstone
    {ε : Type}
    (remoteRef : RefName)
    (prior : Text)
    (localSha : Sha)
    (world : World) :
    run answer
        (deferPriorBundleViaTombstone bucketPrefix remoteRef prior
          localSha : Program ε Unit)
        world =
      (.ok (), deferred bucketPrefix remoteRef prior localSha world) := by
  unfold deferPriorBundleViaTombstone deferred
  cases parseRemoteShaFromKey prior with
  | none => simp [deletePriorBundleBestEffort, run_bind, run_attempt]
  | some priorSha =>
      by_cases same : priorSha = localSha
      · simp [same, run_bind, run_writeBaselineTombstoneBestEffort,
          deletePriorBundleBestEffort, run_attempt]
      · simp [same, run_bind, run_writeBaselineTombstoneBestEffort]

theorem run_supersedePrior
    {ε : Type}
    (state : PushReadyState)
    (currentKey : Option Text)
    (world : World) :
    run answer
        (supersedePrior bucketPrefix state currentKey : Program ε Unit)
        world =
      (.ok (), superseded bucketPrefix state currentKey world) := by
  unfold supersedePrior superseded
  cases currentKey with
  | none => rfl
  | some prior =>
      simp only
      split
      · exact run_deferPriorBundleViaTombstone _ _ _ _
      · rfl

theorem run_uploadArchive
    {ε : Type}
    (state : PushReadyState)
    (world : World) :
    run answer (uploadArchive bucketPrefix state : Program ε Unit)
        world =
      (.ok (), archived bucketPrefix state world) := by
  unfold uploadArchive archived
  cases state.zipArtifacts with
  | none => rfl
  | some archive =>
      simp [uploadZipArtifactBestEffort, run_bind, run_attempt]

theorem run_commitPush
    (state : PushReadyState)
    (currentKey : Option Text)
    (world : World) :
    run answer (commitPush bucketPrefix state currentKey) world =
      (.ok (.ok state.remoteRef),
        committed bucketPrefix state currentKey world) := by
  have upload :
      ∀ next : Program PushError PushOutcome,
        run answer
            (do
              (Store.putPath
                (bundleKey bucketPrefix state.remoteRef state.localSha)
                state.bundle).mapError PushError.store
              let _ ←
                (Store.putIfAbsent (headKey bucketPrefix)
                  (.text state.remoteRef.text)).mapError PushError.store
              let _ ←
                (Store.putIfAbsent (formatKey bucketPrefix)
                  (.text (lit "bundle"))).mapError PushError.store
              next)
            world =
          run answer next (uploaded bucketPrefix state world) := by
    intro next
    simp only [run_bind, run_mapError, Store.run_putPath,
      run_putIfAbsent, Except.mapError, uploaded]
  unfold commitPush
  rw [upload]
  rw [run_bind_ok (run_supersedePrior state currentKey _),
    run_bind_ok (run_uploadArchive state _)]
  rfl

/-! ## The locked section -/

/-- Whether the protection check refuses a push. -/
def refused
    (bucketPrefix : Option Text)
    (state : PushReadyState)
    (world : World) : Bool :=
  state.force && !state.preExistingWasAncestor &&
    (world.get? (protectedMarkerKey bucketPrefix state.remoteRef)).isSome

/-- Whether the locked section goes on to write. -/
def Accepts
    (bucketPrefix : Option Text)
    (state : PushReadyState)
    (world : World) : Prop :=
  refused bucketPrefix state world = false ∧
    (visibleMetas bucketPrefix state.remoteRef state.hiddenBundles
      world).length ≤ 1 ∧
    state.preExisting =
      (visibleMetas bucketPrefix state.remoteRef state.hiddenBundles
        world).head?.map ObjectMeta.key

theorem run_forceRefused
    (state : PushReadyState)
    (world : World) :
    run answer (forceRefused bucketPrefix state) world =
      (.ok (refused bucketPrefix state world), world) := by
  unfold forceRefused refused
  split
  next guarded => simp [run_mapError, Except.mapError, guarded]
  next free => simp [free]

/-- An accepted push performs all its writes. -/
theorem run_performPushUnderLock_accepts
    {state : PushReadyState}
    {world : World}
    (accepts : Accepts bucketPrefix state world) :
    run answer (performPushUnderLock bucketPrefix state) world =
      (.ok (.ok state.remoteRef),
        committed bucketPrefix state state.preExisting world) := by
  rcases accepts with ⟨notRefused, single, same⟩
  unfold performPushUnderLock
  rw [run_bind_ok (run_forceRefused state world), notRefused]
  simp only [Bool.false_eq_true, if_false, run_bind, run_mapError,
    run_bundlesForRef, Except.mapError]
  rw [if_neg (by omega), ← same, if_neg (by simp)]
  exact run_commitPush state state.preExisting world

/-- A refused push writes nothing and reports an error. -/
theorem run_performPushUnderLock_rejects
    {state : PushReadyState}
    {world : World}
    (rejects : ¬ Accepts bucketPrefix state world) :
    ∃ message,
      run answer (performPushUnderLock bucketPrefix state) world =
        (.ok (.error state.remoteRef message), world) := by
  unfold performPushUnderLock
  rw [run_bind_ok (run_forceRefused state world)]
  cases guarded : refused bucketPrefix state world with
  | true => exact ⟨_, rfl⟩
  | false =>
      simp only [Bool.false_eq_true, if_false, run_bind, run_mapError,
        run_bundlesForRef, Except.mapError]
      split
      · exact ⟨_, rfl⟩
      next single =>
          split
          · exact ⟨_, rfl⟩
          next same =>
              exact
                absurd
                  ⟨guarded, by omega, not_not.1 same⟩ rejects

/-! ## The preparation -/

/-- What the git work answers for a push that goes on. -/
structure GitReady
    (repo : LocalRepo)
    (zip : Bool)
    (spec : PushSpec)
    (preExistingSha : Option Sha)
    (found : LocalGit) : Prop where
  opened : repo.opened = .ok ()
  resolved : repo.resolve spec.localSpec = some found.localSha
  ancestry :
    preExistingAncestry repo preExistingSha found.localSha =
      .ok found.preExistingWasAncestor
  fastForward :
    spec.force = true ∨ found.preExistingWasAncestor = true
  archive :
    if zip then
      ∃ content,
        repo.archive spec.localSpec = .ok content ∧
          found.zipArtifacts = some content
    else found.zipArtifacts = none

theorem localGitWork_ok
    {repo : LocalRepo}
    {zip : Bool}
    {spec : PushSpec}
    {preExistingSha : Option Sha}
    {found : LocalGit} :
    localGitWork repo spec.localSpec preExistingSha spec.force zip =
        .ok (.ok found) ↔
      GitReady repo zip spec preExistingSha found := by
  rcases found with ⟨localSha, zipArtifacts, wasAncestor⟩
  have allowed (forced ancestor : Bool) :
      (!forced && !ancestor) = true ↔
        ¬ (forced = true ∨ ancestor = true) := by
    cases forced <;> cases ancestor <;> simp
  constructor
  · intro worked
    unfold localGitWork at worked
    cases opened : repo.opened with
    | error error => simp [opened, Bind.bind, Except.bind] at worked
    | ok ready =>
    cases resolved : repo.resolve spec.localSpec with
    | none =>
        simp [opened, resolved, Bind.bind, Except.bind, Pure.pure,
          Except.pure] at worked
    | some tip =>
    cases answered : preExistingAncestry repo preExistingSha tip with
    | error error =>
        simp [opened, resolved, answered, Bind.bind, Except.bind] at worked
    | ok ancestor =>
        simp only [opened, resolved, answered, Bind.bind, Except.bind,
          allowed] at worked
        split at worked
        · cases worked
        next forward =>
            cases zip with
            | false =>
                cases worked
                exact ⟨opened, resolved, answered, not_not.1 forward, rfl⟩
            | true =>
                cases archived : repo.archive spec.localSpec with
                | error error => simp [archived] at worked
                | ok content =>
                    simp only [archived, if_true, Pure.pure,
                      Except.pure] at worked
                    cases worked
                    exact
                      ⟨opened, resolved, answered, not_not.1 forward,
                        content, archived, rfl⟩
  · rintro ⟨opened, resolved, ancestry, fastForward, archive⟩
    simp only at resolved ancestry fastForward archive
    unfold localGitWork
    simp only [opened, resolved, ancestry, Bind.bind, Except.bind, allowed,
      fastForward, not_true_eq_false, if_false]
    cases zip with
    | false =>
        simp only [Bool.false_eq_true, if_false] at archive
        simp [archive, Pure.pure, Except.pure]
    | true =>
        simp only [if_true] at archive
        rcases archive with ⟨content, archived, rfl⟩
        simp [archived, Pure.pure, Except.pure]

/-- The visible bundle a push supersedes. -/
def priorKey
    (bucketPrefix : Option Text)
    (remoteRef : RefName)
    (world : World) : Option Text :=
  (visibleMetas bucketPrefix remoteRef (hiddenKeys bucketPrefix world)
    world).head?.map ObjectMeta.key

/-- The state a push carries into the lock. -/
def readyState
    (bucketPrefix : Option Text)
    (spec : PushSpec)
    (world : World)
    (found : LocalGit)
    (bundle : List UInt8) : PushReadyState where
  remoteRef := spec.remoteRef
  localSha := found.localSha
  preExisting := priorKey bucketPrefix spec.remoteRef world
  bundle := bundle
  zipArtifacts := found.zipArtifacts
  force := spec.force
  preExistingWasAncestor := found.preExistingWasAncestor
  localSpec := spec.localSpec
  hiddenBundles := hiddenKeys bucketPrefix world

/-- What a push that goes on to the lock has found. -/
structure Prepared
    (bucketPrefix : Option Text)
    (repo : LocalRepo)
    (zip : Bool)
    (spec : PushSpec)
    (world : World)
    (found : LocalGit)
    (bundle : List UInt8) : Prop where
  named : spec.localSpec ≠ []
  single :
    (visibleMetas bucketPrefix spec.remoteRef
      (hiddenKeys bucketPrefix world) world).length ≤ 1
  git :
    GitReady repo zip spec
      ((priorKey bucketPrefix spec.remoteRef world).bind
        parseRemoteShaFromKey)
      found
  bundled : repo.bundleAt found.localSha spec.localSpec = .ok bundle

/-- The key of a listed bundle names a commit. -/
theorem parse_priorKey
    {remoteRef : RefName}
    {world : World}
    {key : Text}
    (prior : priorKey bucketPrefix remoteRef world = some key) :
    ∃ sha, parseRemoteShaFromKey key = some sha := by
  unfold priorKey at prior
  rcases Option.map_eq_some_iff.1 prior with ⟨entry, first, rfl⟩
  have member := List.mem_of_mem_head? first
  have candidate :=
    (List.mem_filter.1 (List.mem_filter.1 member).1).2
  exact Option.isSome_iff_exists.1 candidate

/-- The git work a push does on what it has listed. -/
def gitWork
    (bucketPrefix : Option Text)
    (repo : LocalRepo)
    (zip : Bool)
    (spec : PushSpec)
    (world : World) : Except PushError PrepareOutcome := do
  let probe ←
    (localGitWork repo spec.localSpec
      ((priorKey bucketPrefix spec.remoteRef world).bind
        parseRemoteShaFromKey)
      spec.force zip).mapError PushError.git
  match probe with
  | .error .localRefNotFound =>
      return .done (.error spec.remoteRef
        ("\"" ++ String.ofList spec.localSpec ++ " not found\"?"))
  | .error .notAncestor =>
      return .done (.error spec.remoteRef
        (notAncestorWireMessage spec.localSpec))
  | .ok found => do
      let bundle ←
        (repo.bundleAt found.localSha spec.localSpec).mapError
          PushError.git
      return .ready (readyState bucketPrefix spec world found bundle)

/-- A preparation lists, and leaves the rest to git. -/
theorem run_preparePush
    (repo : LocalRepo)
    (zip : Bool)
    {spec : PushSpec}
    (named : spec.localSpec ≠ [])
    (world : World) :
    run answer (preparePush bucketPrefix repo zip spec) world =
      (if 1 < (visibleMetas bucketPrefix spec.remoteRef
            (hiddenKeys bucketPrefix world) world).length then
          .ok (.done (.error spec.remoteRef multipleBundlesMessage))
        else gitWork bucketPrefix repo zip spec world,
        world) := by
  unfold preparePush
  rw [if_neg named]
  simp only [run_bind, run_mapError, run_tombstonedBundleKeys,
    run_bundlesForRef, Except.mapError]
  split
  · rfl
  next single =>
      unfold gitWork readyState
      cases prior : priorKey bucketPrefix spec.remoteRef world with
      | none =>
          unfold priorKey at prior
          simp only [prior, run_bind, run_mapError, Option.bind_none]
          cases localGitWork repo spec.localSpec none spec.force zip with
          | error error => rfl
          | ok probe =>
              rcases probe with refusal | found
              · cases refusal <;> rfl
              · cases bundled :
                    repo.bundleAt found.localSha spec.localSpec with
                | error error =>
                    simp [Prog.ofExcept, Except.mapError, bundled,
                      Bind.bind, Except.bind]
                    rfl
                | ok bundle =>
                    simp [Prog.ofExcept, Except.mapError, bundled,
                      Bind.bind, Except.bind, Pure.pure, Except.pure]
                    rfl
      | some key =>
          rcases parse_priorKey prior with ⟨sha, parses⟩
          unfold priorKey at prior
          simp only [prior, parses, run_bind, run_mapError,
            Option.map_some, Option.bind_some]
          cases
            localGitWork repo spec.localSpec (some sha) spec.force
              zip with
          | error error => rfl
          | ok probe =>
              rcases probe with refusal | found
              · cases refusal <;> rfl
              · cases bundled :
                    repo.bundleAt found.localSha spec.localSpec with
                | error error =>
                    simp [Prog.ofExcept, Except.mapError, bundled,
                      Bind.bind, Except.bind]
                    rfl
                | ok bundle =>
                    simp [Prog.ofExcept, Except.mapError, bundled,
                      Bind.bind, Except.bind, Pure.pure, Except.pure]
                    rfl

/-- The git work goes on to the lock or reports an error. -/
theorem gitWork_ok
    {repo : LocalRepo}
    {zip : Bool}
    {spec : PushSpec}
    {world : World}
    {prepared : PrepareOutcome}
    (worked :
      gitWork bucketPrefix repo zip spec world = .ok prepared) :
    (∃ message, prepared = .done (.error spec.remoteRef message)) ∨
      ∃ found bundle,
        GitReady repo zip spec
            ((priorKey bucketPrefix spec.remoteRef world).bind
              parseRemoteShaFromKey)
            found ∧
          repo.bundleAt found.localSha spec.localSpec = .ok bundle ∧
          prepared =
            .ready (readyState bucketPrefix spec world found bundle) := by
  unfold gitWork at worked
  cases probed :
      localGitWork repo spec.localSpec
        ((priorKey bucketPrefix spec.remoteRef world).bind
          parseRemoteShaFromKey)
        spec.force zip with
  | error error =>
      simp [probed, Except.mapError, Bind.bind, Except.bind] at worked
  | ok probe =>
      rcases probe with refusal | found
      · left
        cases refusal with
        | localRefNotFound =>
            simp only [probed, Except.mapError, Bind.bind, Except.bind,
              Pure.pure, Except.pure, Except.ok.injEq] at worked
            exact ⟨_, worked.symm⟩
        | notAncestor =>
            simp only [probed, Except.mapError, Bind.bind, Except.bind,
              Pure.pure, Except.pure, Except.ok.injEq] at worked
            exact ⟨_, worked.symm⟩
      · right
        cases bundled : repo.bundleAt found.localSha spec.localSpec with
        | error error =>
            simp [probed, bundled, Except.mapError, Bind.bind,
              Except.bind] at worked
        | ok bundle =>
            simp only [probed, bundled, Except.mapError, Bind.bind,
              Except.bind, Pure.pure, Except.pure,
              Except.ok.injEq] at worked
            exact
              ⟨found, bundle, localGitWork_ok.1 probed, bundled,
                worked.symm⟩

/-- The preparation of a push that goes on to the lock. -/
theorem Prepared.run
    {repo : LocalRepo}
    {zip : Bool}
    {spec : PushSpec}
    {world : World}
    {found : LocalGit}
    {bundle : List UInt8}
    (prepared :
      Prepared bucketPrefix repo zip spec world found bundle) :
    run answer (preparePush bucketPrefix repo zip spec) world =
      (.ok (.ready (readyState bucketPrefix spec world found bundle)),
        world) := by
  have single := prepared.single
  rw [run_preparePush repo zip prepared.named, if_neg (by omega)]
  unfold gitWork
  simp [localGitWork_ok.2 prepared.git, prepared.bundled,
    Except.mapError, Bind.bind, Except.bind, Pure.pure, Except.pure]

/-- The bucket after a push that reported success. -/
def pushed
    (bucketPrefix : Option Text)
    (state : PushReadyState)
    (world : World) : World :=
  (committed bucketPrefix state state.preExisting
    (world.locked (lockKey bucketPrefix state.remoteRef))).remove
    (lockKey bucketPrefix state.remoteRef)

/-- What lets a push report success. -/
structure Succeeds
    (bucketPrefix : Option Text)
    (repo : LocalRepo)
    (zip : Bool)
    (ttl now : Int)
    (spec : PushSpec)
    (world : World)
    (found : LocalGit)
    (bundle : List UInt8) : Prop where
  prepared : Prepared bucketPrefix repo zip spec world found bundle
  free :
    world.lockFree ttl now (lockKey bucketPrefix spec.remoteRef) = true
  accepts :
    Accepts bucketPrefix (readyState bucketPrefix spec world found bundle)
      (world.locked (lockKey bucketPrefix spec.remoteRef))

/-- A push that succeeds has written all it writes. -/
theorem Succeeds.run
    {repo : LocalRepo}
    {zip : Bool}
    {ttl now : Int}
    {spec : PushSpec}
    {world : World}
    {found : LocalGit}
    {bundle : List UInt8}
    (succeeds :
      Succeeds bucketPrefix repo zip ttl now spec world found bundle) :
    run answer (pushOne bucketPrefix repo zip ttl now spec) world =
      (.ok (.ok spec.remoteRef),
        pushed bucketPrefix
          (readyState bucketPrefix spec world found bundle) world) := by
  unfold pushOne
  rw [run_bind_ok succeeds.prepared.run]
  apply (run_underRefLock _ _ _ succeeds.free _ _).trans
  rw [run_performPushUnderLock_accepts succeeds.accepts]
  rfl

variable (bucketPrefix) in
/-- A push that does not succeed leaves the objects as they are. -/
theorem succeeds_or_unchanged
    (repo : LocalRepo)
    (zip : Bool)
    (ttl now : Int)
    (spec : PushSpec)
    (named : spec.localSpec ≠ [])
    (world : World) :
    (∃ found bundle,
      Succeeds bucketPrefix repo zip ttl now spec world found bundle) ∨
      ∃ result next,
        run answer (pushOne bucketPrefix repo zip ttl now spec) world =
            (result, next) ∧
          (∀ refName, result ≠ .ok (.ok refName)) ∧
          (next = world ∨
            next =
              (world.locked (lockKey bucketPrefix spec.remoteRef)).remove
                (lockKey bucketPrefix spec.remoteRef)) := by
  unfold pushOne
  by_cases several :
      1 < (visibleMetas bucketPrefix spec.remoteRef
        (hiddenKeys bucketPrefix world) world).length
  · right
    rw [run_bind, run_preparePush repo zip named, if_pos several]
    exact ⟨_, _, rfl, fun refName same => by simp at same, Or.inl rfl⟩
  · rw [run_bind, run_preparePush repo zip named, if_neg several]
    cases worked : gitWork bucketPrefix repo zip spec world with
    | error error =>
        right
        exact ⟨_, _, rfl, fun refName same => by simp at same, Or.inl rfl⟩
    | ok prepared =>
        rcases gitWork_ok worked with
          ⟨message, rfl⟩ | ⟨found, bundle, git, bundled, rfl⟩
        · right
          exact ⟨_, _, rfl, fun refName same => by simp at same, Or.inl rfl⟩
        · let state := readyState bucketPrefix spec world found bundle
          let work := performPushUnderLock bucketPrefix state
          by_cases free :
              world.lockFree ttl now
                  (lockKey bucketPrefix spec.remoteRef) = true
          · by_cases accepts :
                Accepts bucketPrefix state
                  (world.locked (lockKey bucketPrefix spec.remoteRef))
            · left
              exact
                ⟨found, bundle, ⟨named, by omega, git, bundled⟩, free,
                  accepts⟩
            · right
              rcases run_performPushUnderLock_rejects accepts with
                ⟨message, failed⟩
              have ran :=
                run_underRefLock bucketPrefix spec.remoteRef world free
                  "pushing or deleting" work
              rw [failed] at ran
              exact
                ⟨_, _, ran, fun refName same => by simp at same,
                  Or.inr rfl⟩
          · right
            have ran :=
              run_underRefLock_contended bucketPrefix spec.remoteRef world
                (by simpa using free) "pushing or deleting" work
            exact
              ⟨_, _, ran, fun refName same => by simp at same,
                Or.inl rfl⟩

/-- A push that reports success has succeeded. -/
theorem succeeds_of_run
    {repo : LocalRepo}
    {zip : Bool}
    {ttl now : Int}
    {spec : PushSpec}
    (named : spec.localSpec ≠ [])
    {world : World}
    {refName : RefName}
    (reported :
      (run answer (pushOne bucketPrefix repo zip ttl now spec) world).1 =
        .ok (.ok refName)) :
    ∃ found bundle,
      Succeeds bucketPrefix repo zip ttl now spec world found bundle := by
  rcases
      succeeds_or_unchanged bucketPrefix repo zip ttl now spec named
        world with
    succeeds | ⟨result, next, ran, failed, -⟩
  · exact succeeds
  · rw [ran] at reported
    exact absurd reported (failed refName)

end GitRemoteObjectStore.Bundle
