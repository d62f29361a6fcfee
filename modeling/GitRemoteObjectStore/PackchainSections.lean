import GitRemoteObjectStore.BundleDeletion
import GitRemoteObjectStore.PackchainRuns

/-!
# The locked deletions and compactions, run

What `:<ref>`, `delete-branch` and `compact` leave in the bucket when nobody
else acts between their calls.
-/

namespace GitRemoteObjectStore

open CallProgram Prog GitRemoteObjectStore.Bundle

variable [Platform] {bucketPrefix : Option Text}

/-! ## Deferring the baseline -/

/-- The baseline a deletion leaves to the collector. -/
def deferredBaseline
    (bucketPrefix : Option Text)
    (refName : RefName)
    (fresh : List ObjectMeta)
    (world : World) : Option Sha40 :=
  match loadedChain (world.body? (chainKey bucketPrefix refName)) with
  | .ok (some chain) =>
      if fresh.any fun entry =>
          entry.key == bundleKey bucketPrefix refName chain.fullAt then
        some chain.fullAt
      else none
  | _ => none

/-- The bucket once that baseline is tombstoned. -/
def deferring
    (bucketPrefix : Option Text)
    (refName : RefName)
    (fresh : List ObjectMeta)
    (world : World) : World :=
  match deferredBaseline bucketPrefix refName fresh world with
  | some sha => world.tombstone bucketPrefix refName sha
  | none => world

theorem run_tryWriteBaselineTombstone
    {ε : Type}
    (refName : RefName)
    (fresh : List ObjectMeta)
    (world : World) :
    run answer
        (tryWriteBaselineTombstone bucketPrefix refName fresh :
          Program ε (Option Text))
        world =
      (.ok
          ((deferredBaseline bucketPrefix refName fresh world).map
            (bundleKey bucketPrefix refName)),
        deferring bucketPrefix refName fresh world) := by
  unfold tryWriteBaselineTombstone deferring deferredBaseline
  simp only [run_bind, run_attempt, run_loadChain]
  cases loadedChain (world.body? (chainKey bucketPrefix refName)) with
  | error error => rfl
  | ok found =>
      cases found with
      | none => rfl
      | some chain =>
          simp only
          split
          · simp only [run_bind, run_attempt,
              writeBaselineTombstoneForOrphan,
              run_writeBaselineTombstoneUnconditional]
            rfl
          · rfl

theorem slot?_deferring
    {refName : RefName}
    {fresh : List ObjectMeta}
    {world : World}
    {slot : Slot}
    (notTombstone : ∀ runId, slot ≠ .baselineTombstone runId) :
    (deferring bucketPrefix refName fresh world).slot? bucketPrefix slot =
      world.slot? bucketPrefix slot := by
  unfold deferring
  split
  · exact slot?_tombstone notTombstone
  · rfl

/-! ## Sweeps -/

/-- The listed objects a sweep removes. -/
def sweepable
    (bucketPrefix : Option Text)
    (refName : RefName)
    (world : World) : List ObjectMeta :=
  (deletable bucketPrefix refName world).filter fun entry =>
    (deferredBaseline bucketPrefix refName
        (deletable bucketPrefix refName world) world).map
        (bundleKey bucketPrefix refName) ≠ some entry.key

/-- The bucket once a reference was swept. -/
def sweptRef
    (bucketPrefix : Option Text)
    (refName : RefName)
    (world : World) : World :=
  swept (sweepable bucketPrefix refName world)
    (deferring bucketPrefix refName (deletable bucketPrefix refName world)
      world)

/-- The lock object is no baseline, listed or not. -/
theorem deferredBaseline_deletable (refName : RefName) (world : World) :
    deferredBaseline bucketPrefix refName
        (deletable bucketPrefix refName world) world =
      deferredBaseline bucketPrefix refName
        (world.listing (refListingPrefix bucketPrefix refName)) world := by
  have counted
      (entries : List ObjectMeta)
      (sha : Sha40) :
      ((entries.filter fun entry =>
            entry.key ≠ lockKey bucketPrefix refName).any
          fun entry => entry.key == bundleKey bucketPrefix refName sha) =
        entries.any
          fun entry => entry.key == bundleKey bucketPrefix refName sha := by
    rw [List.any_filter]
    apply List.any_congr rfl
    intro entry
    rw [bundleKey_eq, lockKey_eq]
    by_cases same :
        entry.key = (Slot.ref refName (.bundle sha)).key bucketPrefix
    · simp [same]
    · simp [same]
  unfold deferredBaseline deletable
  simp only [counted]

theorem get?_sweptRef (refName : RefName) (world : World) (key : Text) :
    (sweptRef bucketPrefix refName world).get? key =
      if key ∈ (sweepable bucketPrefix refName world).map ObjectMeta.key
      then none
      else
        (deferring bucketPrefix refName
          (deletable bucketPrefix refName world) world).get? key :=
  get?_swept _ _ _

/-- What is not listed under the reference stays. -/
theorem slot?_sweptRef_of_not_under
    {refName : RefName}
    {world : World}
    {slot : Slot}
    (aside : ¬ slot.Under refName)
    (notTombstone : ∀ runId, slot ≠ .baselineTombstone runId) :
    (sweptRef bucketPrefix refName world).slot? bucketPrefix slot =
      world.slot? bucketPrefix slot := by
  have kept :
      slot.key bucketPrefix ∉
        (sweepable bucketPrefix refName world).map ObjectMeta.key := by
    intro member
    rcases List.mem_map.1 member with ⟨entry, listed, same⟩
    have found :=
      (List.mem_filter.1 (List.mem_filter.1 listed).1).1
    have begins := (World.mem_listing.1 found).1
    rw [same, refListingPrefix_prefix_iff] at begins
    exact aside begins
  have deferral :=
    @slot?_deferring _ bucketPrefix refName
      (deletable bucketPrefix refName world) world slot notTombstone
  rw [← deferral]
  unfold World.slot? World.body?
  rw [get?_sweptRef, if_neg kept]

/-- Of what is listed, only the lock and a bundle may stay. -/
theorem slot?_sweptRef_of_under
    {refName : RefName}
    {world : World}
    {slot : Slot}
    (under : slot.Under refName)
    (notLock : slot ≠ .ref refName .lock)
    (notBundle : ∀ sha, slot ≠ .ref refName (.bundle sha)) :
    (sweptRef bucketPrefix refName world).slot? bucketPrefix slot =
      none := by
  have notTombstone : ∀ runId, slot ≠ .baselineTombstone runId := by
    rintro runId rfl
    exact under
  cases stored : world.slot? bucketPrefix slot with
  | none =>
      unfold World.slot? World.body?
      rw [get?_sweptRef]
      split
      · rfl
      · change
          (deferring bucketPrefix refName
            (deletable bucketPrefix refName world) world).slot?
              bucketPrefix slot = none
        rw [slot?_deferring notTombstone, stored]
  | some body =>
      have removed :
          slot.key bucketPrefix ∈
            (sweepable bucketPrefix refName world).map
              ObjectMeta.key := by
        rcases Option.map_eq_some_iff.1 stored with ⟨object, found, -⟩
        have listed :
            ∃ entry ∈
                world.listing (refListingPrefix bucketPrefix refName),
              entry.key = slot.key bucketPrefix := by
          apply World.exists_mem_listing.2
          rw [refListingPrefix_prefix_iff, found]
          exact ⟨under, rfl⟩
        rcases listed with ⟨entry, member, same⟩
        apply List.mem_map.2
        refine
          ⟨entry,
            List.mem_filter.2
              ⟨List.mem_filter.2 ⟨member, decide_eq_true ?_⟩,
                decide_eq_true ?_⟩,
            same⟩
        · rw [same, lockKey_eq, Ne, Slot.key_inj]
          exact notLock
        · intro deferred
          rcases Option.map_eq_some_iff.1 deferred with ⟨sha, -, equal⟩
          rw [same, bundleKey_eq, Slot.key_inj] at equal
          exact notBundle sha equal.symm
      unfold World.slot? World.body?
      rw [get?_sweptRef, if_pos removed]
      rfl

/-- What a sweep leaves was there. -/
theorem slot?_of_sweptRef
    {refName : RefName}
    {world : World}
    {slot : Slot}
    {body : Body}
    (notTombstone : ∀ runId, slot ≠ .baselineTombstone runId)
    (stored :
      (sweptRef bucketPrefix refName world).slot? bucketPrefix slot =
        some body) :
    world.slot? bucketPrefix slot = some body := by
  unfold World.slot? World.body? at stored
  rw [get?_sweptRef] at stored
  split at stored
  · cases stored
  · change
      (deferring bucketPrefix refName
        (deletable bucketPrefix refName world) world).slot? bucketPrefix
          slot = some body at stored
    rw [slot?_deferring notTombstone] at stored
    exact stored

/-! ## The deletions -/

/-- A sweep of the listed objects, but for the lock and the baseline. -/
theorem foldl_sweep
    (refName : RefName)
    (deferred : Option Text)
    (entries : List ObjectMeta)
    (world : World) :
    entries.foldl
        (fun world (entry : ObjectMeta) =>
          if entry.key = lockKey bucketPrefix refName then world
          else if deferred = some entry.key then world
          else world.remove entry.key)
        world =
      swept
        ((entries.filter fun entry =>
            entry.key ≠ lockKey bucketPrefix refName).filter
          fun entry => deferred ≠ some entry.key)
        world := by
  unfold swept
  rw [List.foldl_filter, List.foldl_filter]
  congr 1
  funext state entry
  by_cases later : deferred = some entry.key
  · simp [later]
  · simp [later]

/-- `:<ref>` of a reference with a chain and no marker sweeps it. -/
theorem run_deleteUnderLock
    {refName : RefName}
    {world : World}
    (chained :
      (world.get? (chainKey bucketPrefix refName)).isSome)
    (unmarked :
      entriesHaveProtectedMarker
          (world.listing (refListingPrefix bucketPrefix refName)) =
        false) :
    run answer (Packchain.deleteUnderLock bucketPrefix refName) world =
      (.ok (.ok refName), sweptRef bucketPrefix refName world) := by
  rcases Option.isSome_iff_exists.1 chained with ⟨object, found⟩
  have sweeping
      (deferred : Option Text)
      (entries : List ObjectMeta)
      (state : World) :
      run answer
          (forEach
            (fun entry : ObjectMeta =>
              if entry.key = lockKey bucketPrefix refName then pure ()
              else if deferred = some entry.key then pure ()
              else deleteIdempotent entry.key)
            entries)
          state =
        (.ok (),
          swept
            ((entries.filter fun entry =>
                entry.key ≠ lockKey bucketPrefix refName).filter
              fun entry => deferred ≠ some entry.key)
            state) := by
    rw [← foldl_sweep]
    apply run_forEach_effect
    intro entry state
    split
    · rfl
    · split
      · rfl
      · exact run_deleteIdempotent state entry.key
  unfold Packchain.deleteUnderLock sweptRef sweepable deferring
  rw [deferredBaseline_deletable]
  simp only [run_bind, run_attempt, Store.run_head_present found,
    run_mapError, Store.run_list, Except.mapError, unmarked,
    Bool.false_eq_true, if_false, run_tryWriteBaselineTombstone,
    sweeping, run_verifyNoOrphanProtectedAfterDelete]
  rfl

/-- Otherwise it reports an error and changes nothing. -/
theorem run_deleteUnderLock_refused
    {refName : RefName}
    {world : World}
    (refused :
      world.get? (chainKey bucketPrefix refName) = none ∨
        entriesHaveProtectedMarker
            (world.listing (refListingPrefix bucketPrefix refName)) =
          true) :
    ∃ message,
      run answer (Packchain.deleteUnderLock bucketPrefix refName) world =
        (.ok (.error refName message), world) := by
  unfold Packchain.deleteUnderLock
  cases found : world.get? (chainKey bucketPrefix refName) with
  | none =>
      simp only [run_bind, run_attempt, Store.run_head_absent found]
      exact ⟨_, rfl⟩
  | some object =>
      have marked := refused.resolve_left (by rw [found]; exact Option.some_ne_none _)
      simp only [run_bind, run_attempt, Store.run_head_present found,
        run_mapError, Store.run_list, Except.mapError, marked, if_true]
      exact ⟨_, rfl⟩

/-- What lets `delete-branch` go on under the lock. -/
def BranchDeletes
    (bucketPrefix : Option Text)
    (refName : RefName)
    (world : World) : Prop :=
  deletable bucketPrefix refName world ≠ [] ∧
    entriesHaveProtectedMarker (deletable bucketPrefix refName world) =
      false

/-- `delete-branch` of an unmarked branch sweeps it. -/
theorem run_deleteBranchUnderLock
    {refName : RefName}
    {world : World}
    (deletes : BranchDeletes bucketPrefix refName world) :
    ∃ count,
      run answer (deleteBranchUnderLock bucketPrefix refName) world =
        (.ok (.deleted count), sweptRef bucketPrefix refName world) := by
  rcases deletes with ⟨occupied, unmarked⟩
  have listed :
      (world.listing (refListingPrefix bucketPrefix refName)).filter
          (fun entry => entry.key ≠ lockKey bucketPrefix refName) =
        deletable bucketPrefix refName world :=
    rfl
  have folded
      (deferred : Option Text)
      (entries : List ObjectMeta)
      (state : World) :
      entries.foldl
          (fun world (entry : ObjectMeta) =>
            if deferred = some entry.key then world
            else world.remove entry.key)
          state =
        swept (entries.filter fun entry => deferred ≠ some entry.key)
          state := by
    unfold swept
    rw [List.foldl_filter]
    congr 1
    funext world entry
    by_cases later : deferred = some entry.key <;> simp [later]
  unfold deleteBranchUnderLock sweptRef sweepable deferring
  simp only [run_bind, run_mapError, Store.run_list, Except.mapError,
    listed, List.isEmpty_iff, occupied, if_false, unmarked,
    Bool.false_eq_true, run_tryWriteBaselineTombstone]
  generalize
    (deferredBaseline bucketPrefix refName
        (deletable bucketPrefix refName world) world).map
      (bundleKey bucketPrefix refName) = deferred
  rw [@run_foldEach_effect _ _ _ _ _ _ _ _
    fun state (entry : ObjectMeta) =>
      if deferred = some entry.key then state
      else state.remove entry.key]
  · rw [folded]
    simp only [if_true, run_bind,
      run_verifyNoOrphanProtectedAfterDelete]
    exact ⟨_, rfl⟩
  · intro undeleted entry state
    split
    · rfl
    · cases found : state.get? entry.key with
      | none =>
          rw [state.remove_of_absent _ found]
          simp [Store.delete, answer, found, Prog.ofExcept]
      | some object =>
          simp [Store.delete, answer, found, Prog.ofExcept]

/-- Otherwise it changes nothing. -/
theorem run_deleteBranchUnderLock_refused
    {refName : RefName}
    {world : World}
    (refused : ¬ BranchDeletes bucketPrefix refName world) :
    (∀ count,
      (run answer (deleteBranchUnderLock bucketPrefix refName) world).1 ≠
        .ok (.deleted count)) ∧
      (run answer (deleteBranchUnderLock bucketPrefix refName) world).2 =
        world := by
  have listed :
      (world.listing (refListingPrefix bucketPrefix refName)).filter
          (fun entry => entry.key ≠ lockKey bucketPrefix refName) =
        deletable bucketPrefix refName world :=
    rfl
  unfold deleteBranchUnderLock
  simp only [run_bind, run_mapError, Store.run_list, Except.mapError,
    listed]
  by_cases empty : deletable bucketPrefix refName world = []
  · rw [if_pos (List.isEmpty_iff.2 empty)]
    refine ⟨?_, rfl⟩
    intro count same
    cases same
  · have marked :
        entriesHaveProtectedMarker
            (deletable bucketPrefix refName world) = true := by
      rw [← Bool.not_eq_false]
      exact fun unmarked => refused ⟨empty, unmarked⟩
    rw [if_neg (by simpa using empty), if_pos marked]
    refine ⟨?_, rfl⟩
    intro count same
    cases same

/-! ## Compactions -/

namespace Packchain

/-- What a download of one object gives. -/
def fetched (world : World) (key : Text) : Except PackchainError Body :=
  match world.body? key with
  | some body => .ok body
  | none => .error (.store (.notFound key))

/-- What a compaction downloads. -/
def downloaded
    (bucketPrefix : Option Text)
    (completion : Arrivals.Completion)
    (refName : RefName)
    (chain : ChainManifest)
    (world : World) : Except PackchainError Directory := do
  let tasks ← downloadTasks bucketPrefix refName chain
  (completion.arrange tasks).foldlM
    (fun (directory : Directory) task => do
      let body ← fetched world task.key
      return directory.insert task.dest body)
    ∅

theorem run_getToFile (world : World) (key : Text) :
    run answer ((Store.getToFile key).mapError PackchainError.store)
        world =
      (fetched world key, world) := by
  unfold fetched World.body?
  cases found : world.get? key with
  | none =>
      simp [Store.getToFile, answer, found, Prog.ofExcept]
  | some object =>
      simp [Store.getToFile, answer, found, Prog.ofExcept]

theorem run_downloadChainArtefacts
    (completion : Arrivals.Completion)
    (refName : RefName)
    (chain : ChainManifest)
    (world : World) :
    run answer
        (downloadChainArtefacts bucketPrefix completion refName chain)
        world =
      (downloaded bucketPrefix completion refName chain world, world) := by
  unfold downloadChainArtefacts downloaded
  cases downloadTasks bucketPrefix refName chain with
  | error error => rfl
  | ok tasks =>
      simp only [Prog.ofExcept, done_bind]
      apply run_foldEach_read
      intro directory task _
      rw [run_bind, run_getToFile]
      cases fetched world task.key <;> rfl

/-- The bucket once a compaction has written its chain. -/
def rechained
    (bucketPrefix : Option Text)
    (refName : RefName)
    (chain : ChainManifest)
    (built : BuiltPack × Option PathIndex × List UInt8)
    (world : World) : World :=
  (((world.put (packKey bucketPrefix built.1.contentSha)
          (.file built.1.pack)).put
        (packIdxKey bucketPrefix built.1.contentSha)
        (.file built.1.idx)).put
      (bundleKey bucketPrefix refName chain.tip)
      (.file built.2.2)).put
    (chainKey bucketPrefix refName)
    (.chain (compactedManifest chain built.1))

/-- The bucket after a compaction. -/
def compacted
    (bucketPrefix : Option Text)
    (refName : RefName)
    (chain : ChainManifest)
    (built : BuiltPack × Option PathIndex × List UInt8)
    (world : World) : World :=
  let rechained := rechained bucketPrefix refName chain built world
  let reindexed :=
    match built.2.1 with
    | some index =>
        rechained.put (pathIndexKey bucketPrefix refName)
          (.pathIndex index)
    | none => rechained
  if chain.fullAt = chain.tip then reindexed
  else reindexed.tombstone bucketPrefix refName chain.fullAt

theorem run_commitCompaction
    (refName : RefName)
    (chain : ChainManifest)
    (built : BuiltPack × Option PathIndex × List UInt8)
    (world : World) :
    run answer (commitCompaction bucketPrefix refName chain built) world =
      (.ok (built.1.contentSha, built.1.packBytes),
        compacted bucketPrefix refName chain built world) := by
  unfold commitCompaction compacted rechained
  rcases built with ⟨pack, index, bundle⟩
  simp only [run_bind, run_mapError, Store.run_putPath, Except.mapError,
    run_writeChain]
  cases index with
  | none =>
      simp only [writePathIndexIfAny, pure_eq, run_done,
        run_writeBaselineTombstoneBestEffort]
  | some index =>
      simp only [writePathIndexIfAny, pure_eq, run_done,
        run_writePathIndex, run_writeBaselineTombstoneBestEffort]

omit [Platform] in
/-- The scratch repository is what some bundle and packs install to. -/
theorem exists_install
    {scratch : Scratch}
    {directory : Directory}
    {chain : ChainManifest}
    {repo : LocalRepo}
    (installed :
      installChainIntoRepo scratch directory chain = .ok repo) :
    ∃ bundle packs, scratch.install bundle packs = .ok repo := by
  unfold installChainIntoRepo at installed
  cases bundled : directory.read (.bundle chain.fullAt) with
  | error error =>
      simp [bundled, Bind.bind, Except.bind] at installed
  | ok bundle =>
      cases packed :
          chain.segments.reverse.mapM fun segment =>
            directory.read (.pack segment.sha) with
      | error error =>
          simp [bundled, packed, Bind.bind, Except.bind] at installed
      | ok packs =>
          simp only [bundled, packed, Bind.bind, Except.bind]
            at installed
          exact ⟨bundle, packs, installed⟩

/-- What a rebuilding that succeeds has computed. -/
structure Rebuilt
    (scratch : Scratch)
    (chain : ChainManifest)
    (directory : Directory)
    (built : BuiltPack × Option PathIndex × List UInt8)
    (repo : LocalRepo)
    (peeled : PeeledTip) : Prop where
  installed : installChainIntoRepo scratch directory chain = .ok repo
  peels : repo.peelTagChain chain.tip = .ok peeled
  pack : repo.buildBaselinePack peeled = .ok built.1
  pathIndex : repo.extractPathIndex peeled chain.tip = .ok built.2.1
  bundle : repo.bundleAt chain.tip chain.tip.text = .ok built.2.2

omit [Platform] in
theorem rebuild_ok
    {scratch : Scratch}
    {chain : ChainManifest}
    {directory : Directory}
    {built : BuiltPack × Option PathIndex × List UInt8} :
    rebuild scratch chain directory = .ok built ↔
      ∃ repo peeled,
        Rebuilt scratch chain directory built repo peeled := by
  unfold rebuild
  constructor
  · intro builds
    cases installed : installChainIntoRepo scratch directory chain with
    | error error => simp [installed, Bind.bind, Except.bind] at builds
    | ok repo =>
    cases peels : repo.peelTagChain chain.tip with
    | error error =>
        simp [installed, peels, Bind.bind, Except.bind,
          Except.mapError] at builds
    | ok peeled =>
    cases packs : repo.buildBaselinePack peeled with
    | error error =>
        simp [installed, peels, packs, Bind.bind, Except.bind,
          Except.mapError] at builds
    | ok pack =>
    cases indexes : repo.extractPathIndex peeled chain.tip with
    | error error =>
        simp [installed, peels, packs, indexes, Bind.bind, Except.bind,
          Except.mapError] at builds
    | ok pathIndex =>
    cases bundles : repo.bundleAt chain.tip chain.tip.text with
    | error error =>
        simp [installed, peels, packs, indexes, bundles, Bind.bind,
          Except.bind, Except.mapError] at builds
    | ok bundle =>
        simp only [installed, peels, packs, indexes, bundles, Bind.bind,
          Except.bind, Except.mapError, Pure.pure, Except.pure,
          Except.ok.injEq] at builds
        subst builds
        exact ⟨repo, peeled, installed, peels, packs, indexes, bundles⟩
  · rintro ⟨repo, peeled, installed, peels, packs, indexes, bundles⟩
    simp [installed, peels, packs, indexes, bundles, Bind.bind,
      Except.bind, Except.mapError, Pure.pure, Except.pure]

/-- A compaction that can read and rebuild a chain rewrites it. -/
theorem run_compactUnderLock_of_rebuild
    {scratch : Scratch}
    {refName : RefName}
    {world : World}
    {chain : ChainManifest}
    {directory : Directory}
    {built : BuiltPack × Option PathIndex × List UInt8}
    (loaded :
      loadedChain (world.body? (chainKey bucketPrefix refName)) =
        .ok (some chain))
    (fetches :
      downloaded bucketPrefix scratch.completion refName chain world =
        .ok directory)
    (builds : rebuild scratch chain directory = .ok built) :
    run answer (compactUnderLock bucketPrefix scratch refName) world =
      (.ok (built.1.contentSha, built.1.packBytes),
        compacted bucketPrefix refName chain built world) := by
  unfold compactUnderLock
  rw [run_bind, run_loadChain, loaded]
  simp only [run_bind, run_downloadChainArtefacts, fetches, builds,
    Prog.ofExcept, run_done, run_commitCompaction]

/-- A compaction rewrites the chain it finds, or writes nothing. -/
theorem run_compactUnderLock
    (scratch : Scratch)
    (refName : RefName)
    (world : World) :
    (∃ chain directory built,
      loadedChain (world.body? (chainKey bucketPrefix refName)) =
          .ok (some chain) ∧
        downloaded bucketPrefix scratch.completion refName chain world =
          .ok directory ∧
        rebuild scratch chain directory = .ok built ∧
        run answer (compactUnderLock bucketPrefix scratch refName) world =
          (.ok (built.1.contentSha, built.1.packBytes),
            compacted bucketPrefix refName chain built world)) ∨
      ∃ error,
        run answer (compactUnderLock bucketPrefix scratch refName) world =
          (.error error, world) := by
  cases loaded :
      loadedChain (world.body? (chainKey bucketPrefix refName)) with
  | error error =>
      right
      refine ⟨error, ?_⟩
      unfold compactUnderLock
      rw [run_bind, run_loadChain, loaded]
  | ok found =>
      cases found with
      | none =>
          right
          refine ⟨.chainAbsent refName.text, ?_⟩
          unfold compactUnderLock
          rw [run_bind, run_loadChain, loaded]
          rfl
      | some chain =>
          cases fetches :
              downloaded bucketPrefix scratch.completion refName chain
                world with
          | error error =>
              right
              refine ⟨error, ?_⟩
              unfold compactUnderLock
              rw [run_bind, run_loadChain, loaded]
              simp only [run_bind, run_downloadChainArtefacts, fetches]
          | ok directory =>
              cases builds : rebuild scratch chain directory with
              | error error =>
                  right
                  refine ⟨error, ?_⟩
                  unfold compactUnderLock
                  rw [run_bind, run_loadChain, loaded]
                  simp only [run_bind, run_downloadChainArtefacts,
                    fetches, builds, Prog.ofExcept, run_fail]
              | ok built =>
                  left
                  exact
                    ⟨chain, directory, built, rfl, fetches, builds,
                      run_compactUnderLock_of_rebuild loaded fetches
                        builds⟩

end Packchain

end GitRemoteObjectStore
