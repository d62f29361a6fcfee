import Mathlib.Logic.Relation
import GitRemoteObjectStore.DoctorSnapshot

/-!
# What a run of `doctor` changes

A run changes nothing but what its listing calls for: it evicts bundles
beside others, writes `HEAD`, and deletes stale locks.  Each of these is a
`Repair`, and a run is a sequence of them.
-/

namespace GitRemoteObjectStore.Doctor

open CallProgram Prog Separated

variable
    [Platform]
    {bucketPrefix : Option Text}
    {opts : DoctorOpts}

/-! ## Evictions -/

/-- The key of a bundle below the prefix. -/
def bundleAt
    (bucketPrefix : Option Text) (refPath : Text) (sha : Sha40) : Text :=
  keyRoot bucketPrefix ++ bundlePath refPath sha

/-- The reference path a losing bundle is moved to. -/
def quarantinePath (refPath : Text) (runId : Component) : Text :=
  refPath ++ '_' :: runId.text.take 8

/-- The bucket after a losing bundle was deleted or moved. -/
def evicted
    (bucketPrefix : Option Text)
    (opts : DoctorOpts)
    (refPath : Text)
    (world : World)
    (losing : Sha40) : World :=
  if opts.deleteBundle then
    world.remove (bundleAt bucketPrefix refPath losing)
  else
    match world.get? (bundleAt bucketPrefix refPath losing) with
    | none => { world with drawn := world.drawn + 1 }
    | some object =>
        (({ world with drawn := world.drawn + 1 } : World).put
          (bundleAt bucketPrefix
            (quarantinePath refPath (Platform.uuid world.drawn)) losing)
          object.body).remove (bundleAt bucketPrefix refPath losing)

omit [Platform] in
theorem quarantineKey_eq
    (refPath : Text)
    (runId : Component)
    (sha : Sha40) :
    quarantineKey bucketPrefix refPath runId sha =
      bundleAt bucketPrefix (quarantinePath refPath runId) sha := by
  unfold quarantineKey
  rw [join_eq, keyRoot_some_prefixText]
  rfl

omit [Platform] in
theorem bundleAt_inj
    {left right : Text}
    {sha other : Sha40} :
    bundleAt bucketPrefix left sha = bundleAt bucketPrefix right other ↔
      left = right ∧ sha = other := by
  unfold bundleAt
  rw [List.append_cancel_left_eq, bundlePath_inj]

omit [Platform] in
theorem quarantinePath_ne (refPath : Text) (runId : Component) :
    quarantinePath refPath runId ≠ refPath := by
  intro same
  have lengths := congrArg List.length same
  simp [quarantinePath] at lengths

theorem run_evictLosingBundle
    {refPath : Text}
    {losing : BundleEntry}
    (key : losing.key = bundleAt bucketPrefix refPath losing.sha)
    (world : World) :
    run answer (evictLosingBundle bucketPrefix opts refPath losing)
        world =
      (.ok (), evicted bucketPrefix opts refPath world losing.sha) := by
  unfold evictLosingBundle evicted
  rw [key]
  split
  next deletes =>
      rw [run_mapError, run_deleteIdempotent]
      rfl
  next moves =>
      rw [run_bind_ok (run_newUuid world), run_bind]
      cases found :
          world.get? (bundleAt bucketPrefix refPath losing.sha) with
      | none =>
          have missing :
              ({ world with drawn := world.drawn + 1 } : World).get?
                (bundleAt bucketPrefix refPath losing.sha) = none :=
            found
          simp only [run_attempt, copy, run_bind,
            Store.run_getBytes_absent missing]
          rfl
      | some object =>
          have present :
              ({ world with drawn := world.drawn + 1 } : World).get?
                (bundleAt bucketPrefix refPath losing.sha) =
                some object :=
            found
          simp only [run_attempt, copy, run_bind,
            Store.run_getBytes_present present, Store.run_putBytes,
            run_mapError, run_deleteIdempotent, quarantineKey_eq,
            Except.mapError]

section Evicted

variable
    {refPath : Text}
    {world : World}
    {losing : Sha40}

/-- An eviction touches the bundle and its place in quarantine only. -/
theorem get?_evicted
    {key : Text}
    (different : key ≠ bundleAt bucketPrefix refPath losing)
    (elsewhere :
      ∀ runId,
        key ≠ bundleAt bucketPrefix (quarantinePath refPath runId)
          losing) :
    (evicted bucketPrefix opts refPath world losing).get? key =
      world.get? key := by
  unfold evicted
  split
  · exact World.get?_remove_ne _ _ different
  · split
    · rfl
    · rw [World.get?_remove_ne _ _ different,
        World.get?_put_ne _ _ _ (elsewhere _)]
      rfl

/-- What is put in quarantine is there. -/
theorem present_evicted
    {key : Text}
    (different : key ≠ bundleAt bucketPrefix refPath losing)
    (present : (world.get? key).isSome) :
    ((evicted bucketPrefix opts refPath world losing).get? key).isSome := by
  unfold evicted
  split
  · rw [World.get?_remove_ne _ _ different]
    exact present
  · split
    · exact present
    · rw [World.get?_remove_ne _ _ different, World.get?_put]
      split
      · rfl
      · exact present

@[simp]
theorem get?_evicted_self :
    (evicted bucketPrefix opts refPath world losing).get?
      (bundleAt bucketPrefix refPath losing) = none := by
  unfold evicted
  split
  · exact World.get?_remove_self _ _
  · split
    next missing => exact missing
    next => exact World.get?_remove_self _ _

/-- What is absent at a reference path stays so while its bundles go. -/
theorem absent_evicted
    {sha : Sha40}
    (absent : world.get? (bundleAt bucketPrefix refPath sha) = none) :
    (evicted bucketPrefix opts refPath world losing).get?
      (bundleAt bucketPrefix refPath sha) = none := by
  by_cases same : sha = losing
  · rw [same]
    exact get?_evicted_self
  · rw [get?_evicted, absent]
    · intro equal
      exact same (bundleAt_inj.1 equal).2
    · intro runId equal
      exact quarantinePath_ne refPath runId (bundleAt_inj.1 equal).1.symm

@[simp]
theorem clock_evicted :
    (evicted bucketPrefix opts refPath world losing).clock =
      world.clock := by
  unfold evicted
  split
  · rfl
  · split <;> rfl

end Evicted

/-! ## The fixers, one by one -/

/-- The bundles of a list with another name than the keeper. -/
def losers (bundles : List BundleEntry) (keeper : Sha40) : List Sha40 :=
  (bundles.filter fun entry => entry.sha ≠ keeper).map BundleEntry.sha

section Fixers

variable
    {prompter : Prompter}
    {snapshot : RepoSnapshot}
    {refPath : Text}
    {world : World}

/-- The bundles of a snapshot have the keys they should. -/
def RepoSnapshot.WellKeyed
    (bucketPrefix : Option Text) (snapshot : RepoSnapshot) : Prop :=
  ∀ refPath, ∀ entry ∈ snapshot.bundlesAt refPath,
    entry.key = bundleAt bucketPrefix refPath entry.sha

theorem run_evictLosers
    (opts : DoctorOpts)
    (refPath : Text)
    (keyed : snapshot.WellKeyed bucketPrefix)
    (keeper : Sha40)
    (world : World) :
    run answer
        (forEach (evictLosingBundle bucketPrefix opts refPath)
          ((snapshot.bundlesAt refPath).filter fun entry =>
            entry.sha ≠ keeper)) world =
      (.ok (),
        (losers (snapshot.bundlesAt refPath) keeper).foldl
          (evicted bucketPrefix opts refPath) world) := by
  unfold losers
  have keys := keyed refPath
  revert keys
  generalize snapshot.bundlesAt refPath = bundles
  intro keys
  induction bundles generalizing world with
  | nil => rfl
  | cons entry rest hypothesis =>
      have others := fun other member =>
        keys other (List.mem_cons_of_mem entry member)
      rw [List.filter_cons]
      split
      next =>
          rw [forEach_cons,
            run_bind_ok
              (run_evictLosingBundle (keys entry (by simp)) world),
            hypothesis _ others]
          rfl
      next => exact hypothesis _ others

omit [Platform] in
theorem bundlesAt_of_lookup
    {refEntry : RefSnapshot}
    (found : snapshot.refs.lookup refPath = some refEntry) :
    snapshot.bundlesAt refPath = refEntry.bundles := by
  rw [RepoSnapshot.bundlesAt, found]
  rfl

omit [Platform] in
/-- A reference left with its keepers shows no other bundle. -/
theorem bundlesAt_insert_keepers
    {refEntry : RefSnapshot}
    (found : snapshot.refs.lookup refPath = some refEntry)
    {kept : BundleEntry → Bool}
    (other : Text) :
    ({ snapshot with
      refs :=
        snapshot.refs.insert refPath
          { refEntry with bundles := refEntry.bundles.filter kept } } :
        RepoSnapshot).bundlesAt other ⊆
      snapshot.bundlesAt other := by
  by_cases same : other = refPath
  · subst same
    rw [bundlesAt_of_lookup found, RepoSnapshot.bundlesAt,
      AList.lookup_insert]
    exact List.filter_sublist.subset
  · unfold RepoSnapshot.bundlesAt
    rw [AList.lookup_insert_ne same]
    exact List.Subset.refl _

section Chosen

variable
    {refEntry : RefSnapshot}
    {keepIdx : Nat}
    {keeper : BundleEntry}

/-- Nothing is evicted that the operator does not confirm. -/
theorem run_fixMultipleBundles_declined
    (found : snapshot.refs.lookup refPath = some refEntry)
    (selected : prompter.select refPath = .ok keepIdx)
    (chosen : refEntry.bundles[keepIdx]? = some keeper)
    (declined : prompter.confirm refPath = .ok false)
    (world : World) :
    run answer
        (fixMultipleBundles bucketPrefix opts prompter snapshot refPath)
        world =
      (.ok snapshot, world) := by
  simp [fixMultipleBundles, found, selected, chosen, declined]

/-- A keeper that has gone stops the run. -/
theorem run_fixMultipleBundles_stale
    (found : snapshot.refs.lookup refPath = some refEntry)
    (selected : prompter.select refPath = .ok keepIdx)
    (chosen : refEntry.bundles[keepIdx]? = some keeper)
    (confirmed : prompter.confirm refPath = .ok true)
    (gone : world.get? keeper.key = none) :
    run answer
        (fixMultipleBundles bucketPrefix opts prompter snapshot refPath)
        world =
      (.error (.staleSnapshot refPath .deleted), world) := by
  simp [fixMultipleBundles, found, selected, chosen, confirmed, run_bind,
    run_attempt, Store.run_head_absent gone]

/-- All bundles but the keeper's are evicted. -/
theorem run_fixMultipleBundles_confirmed
    (keyed : snapshot.WellKeyed bucketPrefix)
    (found : snapshot.refs.lookup refPath = some refEntry)
    (selected : prompter.select refPath = .ok keepIdx)
    (chosen : refEntry.bundles[keepIdx]? = some keeper)
    (confirmed : prompter.confirm refPath = .ok true)
    (present : (world.get? keeper.key).isSome) :
    run answer
        (fixMultipleBundles bucketPrefix opts prompter snapshot refPath)
        world =
      (.ok
        { snapshot with
          refs :=
            snapshot.refs.insert refPath
              { refEntry with
                bundles :=
                  refEntry.bundles.filter fun entry =>
                    entry.sha = keeper.sha } },
        (losers (snapshot.bundlesAt refPath) keeper.sha).foldl
          (evicted bucketPrefix opts refPath) world) := by
  rcases Option.isSome_iff_exists.1 present with ⟨object, stored⟩
  have evicts :=
    run_evictLosers opts refPath keyed keeper.sha world
  rw [bundlesAt_of_lookup found] at evicts ⊢
  simp only [fixMultipleBundles, found, selected, chosen, confirmed,
    ofExcept_ok, done_bind, Bool.not_true, Bool.false_eq_true, if_false,
    run_bind, run_attempt, Store.run_head_present stored, evicts]
  rfl

end Chosen

/-- What is fixed at a reference path, if anything. -/
theorem fixMultipleBundles_cases
    (opts : DoctorOpts)
    (prompter : Prompter)
    (refPath : Text)
    (keyed : snapshot.WellKeyed bucketPrefix)
    (world : World) :
    (∃ error,
      run answer
          (fixMultipleBundles bucketPrefix opts prompter snapshot refPath)
          world =
        (.error error, world)) ∨
    run answer
        (fixMultipleBundles bucketPrefix opts prompter snapshot refPath)
        world =
      (.ok snapshot, world) ∨
    ∃ keeper next,
      prompter.confirm refPath = .ok true ∧
      run answer
          (fixMultipleBundles bucketPrefix opts prompter snapshot refPath)
          world =
        (.ok next,
          (losers (snapshot.bundlesAt refPath) keeper.sha).foldl
            (evicted bucketPrefix opts refPath) world) ∧
      keeper ∈ snapshot.bundlesAt refPath ∧
      ∀ other, next.bundlesAt other ⊆ snapshot.bundlesAt other := by
  cases found : snapshot.refs.lookup refPath with
  | none =>
      left
      simp [fixMultipleBundles, found]
  | some refEntry =>
      cases selected : prompter.select refPath with
      | error error =>
          left
          simp [fixMultipleBundles, found, selected]
      | ok keepIdx =>
          cases chosen : refEntry.bundles[keepIdx]? with
          | none =>
              left
              simp [fixMultipleBundles, found, selected, chosen]
          | some keeper =>
              cases confirmed : prompter.confirm refPath with
              | error error =>
                  left
                  simp [fixMultipleBundles, found, selected, chosen,
                    confirmed]
              | ok confirm =>
                  cases confirm with
                  | false =>
                      right
                      left
                      exact
                        run_fixMultipleBundles_declined found selected
                          chosen confirmed world
                  | true =>
                      cases stored : world.get? keeper.key with
                      | none =>
                          left
                          exact
                            ⟨_, run_fixMultipleBundles_stale found selected
                              chosen confirmed stored⟩
                      | some object =>
                          right
                          right
                          refine
                            ⟨keeper, _, rfl,
                              run_fixMultipleBundles_confirmed keyed found
                                selected chosen confirmed (by simp [stored]),
                              ?_, ?_⟩
                          · rw [bundlesAt_of_lookup found]
                            exact List.mem_of_getElem? chosen
                          · exact bundlesAt_insert_keepers found

end Fixers

/-! ## `HEAD`, the audit and the locks -/

/-- A new `HEAD` is all that `fixHead` writes. -/
theorem fixHead_cases
    (prompter : Prompter)
    (snapshot : RepoSnapshot)
    (world : World) :
    (run answer (fixHead bucketPrefix prompter snapshot) world).2 =
        world ∨
      ∃ name,
        (run answer (fixHead bucketPrefix prompter snapshot) world).2 =
          world.put (headKey bucketPrefix) (.text name) := by
  unfold fixHead
  simp only
  split
  · exact Or.inl rfl
  · cases prompter.selectHead with
    | error error => exact Or.inl rfl
    | ok chosen =>
        simp only [ofExcept_ok, done_bind]
        split
        · exact Or.inl rfl
        next newHead _ =>
            simp only [run_bind, run_mapError, Store.run_list,
              Except.mapError]
            split
            · exact Or.inl rfl
            · right
              refine ⟨newHead, ?_⟩
              simp only [run_bind, run_mapError, Store.run_putBytes,
                Except.mapError]
              rw [join_some_prefixText]
              rfl

theorem run_attempt_getBytes
    {ε : Type}
    (key : Text)
    (world : World) :
    ∃ outcome,
      run answer
          ((Store.getBytes key).attempt :
            Program ε (Except ObjectStoreError Body)) world =
        (.ok outcome, world) := by
  cases found : world.get? key with
  | none =>
      exact ⟨_, by rw [run_attempt, Store.run_getBytes_absent found]⟩
  | some object =>
      exact ⟨_, by rw [run_attempt, Store.run_getBytes_present found]⟩

/-- The audit reads. -/
theorem run_audit
    {ε : Type}
    (bucketPrefix : Option Text)
    (objects : List ObjectMeta)
    (world : World) :
    ∃ report,
      run answer
          (audit bucketPrefix objects :
            Program ε (List (Text × ChainManifest) × List Tombstone))
          world =
        (.ok report, world) := by
  have chains :
      ∃ chains,
        run answer
            (loadChains bucketPrefix objects :
              Program ε (List (Text × ChainManifest))) world =
            (.ok chains, world) ∧ True := by
    apply run_foldEach_keeping fun _ _ => True
    · intro found entry rest _
      simp only [and_true]
      split
      · exact ⟨_, rfl⟩
      · split
        · exact ⟨_, rfl⟩
        · rcases run_attempt_getBytes (ε := ε) entry.key world with
            ⟨outcome, reads⟩
          rw [run_bind_ok reads]
          cases outcome with
          | error error => exact ⟨_, rfl⟩
          | ok body =>
              simp only
              split <;> exact ⟨_, rfl⟩
    · trivial
  have tombstones :
      ∃ tombstones,
        run answer
            (loadTombstones bucketPrefix objects :
              Program ε (List Tombstone)) world =
            (.ok tombstones, world) ∧ True := by
    unfold loadTombstones
    rw [run_bind_ok (run_nowUtc world)]
    apply run_foldEach_keeping fun _ _ => True
    · intro found entry rest _
      simp only [and_true]
      rcases run_attempt_getBytes (ε := ε) entry.key world with
        ⟨outcome, reads⟩
      rw [run_bind_ok reads]
      cases outcome with
      | error error => exact ⟨_, rfl⟩
      | ok body =>
          simp only
          split <;> exact ⟨_, rfl⟩
    · trivial
  rcases chains with ⟨chains, loadsChains, -⟩
  rcases tombstones with ⟨tombstones, loadsTombstones, -⟩
  unfold audit
  rw [run_bind_ok loadsChains, run_bind_ok loadsTombstones]
  exact ⟨_, rfl⟩

theorem run_maybeRenderPackchainSection
    {ε : Type}
    (bucketPrefix : Option Text)
    (opts : DoctorOpts)
    (objects : List ObjectMeta)
    (world : World) :
    ∃ report,
      run answer
          (maybeRenderPackchainSection bucketPrefix opts objects :
            Program ε
              (Option (List (Text × ChainManifest) × List Tombstone)))
          world =
        (.ok report, world) := by
  unfold maybeRenderPackchainSection
  split
  · exact ⟨_, rfl⟩
  · rcases run_audit (ε := ε) bucketPrefix objects world with
      ⟨report, audits⟩
    rw [run_bind_ok audits]
    exact ⟨_, rfl⟩

/-- The bucket after a lock was looked at again, and deleted if stale. -/
def unlocked (ttl : Int) (world : World) (key : Text) : World :=
  match world.get? key with
  | none => world
  | some object =>
      if isStale ttl world.clock object.lastModified then world.remove key
      else world

section Unlocked

variable
    (ttl : Int)
    {world : World}
    {key other : Text}

omit [Platform] in
theorem get?_unlocked_ne (different : other ≠ key) :
    (unlocked ttl world key).get? other = world.get? other := by
  unfold unlocked
  split
  · rfl
  · split
    · exact World.get?_remove_ne _ _ different
    · rfl

omit [Platform] in
theorem absent_unlocked
    (key : Text)
    (absent : world.get? other = none) :
    (unlocked ttl world key).get? other = none := by
  by_cases same : other = key
  · subst same
    rw [unlocked, absent]
    exact absent
  · rw [get?_unlocked_ne ttl same]
    exact absent

omit [Platform] in
@[simp]
theorem clock_unlocked :
    (unlocked ttl world key).clock = world.clock := by
  unfold unlocked
  split
  · rfl
  · split <;> rfl

end Unlocked

theorem run_deleteStaleLockIfStillStale
    {ε : Type}
    (ttl : Int)
    (key : Text)
    (world : World) :
    ∃ outcome,
      run answer
          (deleteStaleLockIfStillStale ttl key : Program ε DeleteOutcome)
          world =
        (.ok outcome, unlocked ttl world key) := by
  unfold deleteStaleLockIfStillStale unlocked
  cases found : world.get? key with
  | none =>
      refine ⟨.skippedDisappeared, ?_⟩
      simp only [run_bind, run_attempt, Store.run_head_absent found]
      rfl
  | some object =>
      simp only [run_bind, run_attempt, Store.run_head_present found,
        run_nowUtc]
      cases isStale ttl world.clock object.lastModified with
      | false => exact ⟨.skippedNotStale, rfl⟩
      | true =>
          refine ⟨.deleted, ?_⟩
          simp only [Bool.not_true, Bool.false_eq_true, if_false, if_true,
            run_bind, run_attempt, Store.delete, run_call, answer, found]
          rfl

theorem run_listAndHandleStaleLocks
    {ε : Type}
    (objects : List ObjectMeta)
    (world : World) :
    run answer
        (listAndHandleStaleLocks opts objects : Program ε Unit) world =
      (.ok (),
        if opts.deleteStaleLocks then
          (scanStaleLocks world.clock opts.lockTtl objects).foldl
            (unlocked opts.lockTtl) world
        else world) := by
  unfold listAndHandleStaleLocks
  rw [run_bind_ok (run_nowUtc world)]
  simp only
  split
  next none =>
      rw [List.isEmpty_iff.1 none]
      simp
  next =>
      cases opts.deleteStaleLocks with
      | false => rfl
      | true =>
          rw [if_pos rfl]
          apply run_forEach_effect
          intro key state
          rcases run_deleteStaleLockIfStillStale (ε := ε) opts.lockTtl key
            state with ⟨outcome, deletes⟩
          rw [run_bind_ok deletes]
          rfl

/-! ## Repairs -/

/-- One change `doctor` makes to a bucket that was `start` when listed. -/
inductive Repair
    (bucketPrefix : Option Text)
    (opts : DoctorOpts)
    (start : World) : World → World → Prop where
  /-- A bundle is evicted beside another one. -/
  | evict
      {refPath : Text}
      {losing keeper : Sha40}
      {world : World}
      (shown : Shown bucketPrefix start refPath losing)
      (different : keeper ≠ losing)
      (beside : Shown bucketPrefix start refPath keeper) :
      Repair bucketPrefix opts start world
        (evicted bucketPrefix opts refPath world losing)
  /-- `HEAD` is written. -/
  | head
      {name : Text}
      {world : World} :
      Repair bucketPrefix opts start world
        (world.put (headKey bucketPrefix) (.text name))
  /-- A stale lock is deleted. -/
  | unlock
      {key : Text}
      {object : Object}
      {world : World}
      (asked : opts.deleteStaleLocks = true)
      (below : keyRoot bucketPrefix <+: key)
      (lock : isLockKey key = true)
      (listed : start.get? key = some object)
      (stale :
        isStale opts.lockTtl start.clock object.lastModified = true) :
      Repair bucketPrefix opts start world (world.remove key)

/-- Several changes, one after the other. -/
abbrev Repairs
    (bucketPrefix : Option Text)
    (opts : DoctorOpts)
    (start : World) : World → World → Prop :=
  Relation.ReflTransGen (Repair bucketPrefix opts start)

section Repairs

variable {start world last : World}

/-- Time does not pass for repairs. -/
theorem Repairs.clock
    (repairs : Repairs bucketPrefix opts start world last) :
    last.clock = world.clock := by
  induction repairs with
  | refl => rfl
  | tail _ repair hypothesis =>
      rw [← hypothesis]
      cases repair with
      | evict => exact clock_evicted
      | head => rfl
      | unlock => rfl

/-- What every repair keeps, all do. -/
theorem Repairs.keep
    (repairs : Repairs bucketPrefix opts start world last)
    (keeps : World → Prop)
    (each :
      ∀ state later,
        Repair bucketPrefix opts start state later →
          keeps state → keeps later)
    (holds : keeps world) :
    keeps last := by
  induction repairs with
  | refl => exact holds
  | tail _ repair hypothesis => exact each _ _ repair hypothesis

/-- Evicting every loser of a reference is a sequence of repairs. -/
theorem repairs_losers
    {refPath : Text}
    {keeper : BundleEntry}
    {bundles : List BundleEntry}
    (shows :
      ∀ entry ∈ bundles, Shown bucketPrefix start refPath entry.sha)
    (member : keeper ∈ bundles)
    (world : World) :
    Repairs bucketPrefix opts start world
      ((losers bundles keeper.sha).foldl
        (evicted bucketPrefix opts refPath) world) := by
  have each (losing : Sha40) (found : losing ∈ losers bundles keeper.sha) :
      Shown bucketPrefix start refPath losing ∧ keeper.sha ≠ losing := by
    rcases List.mem_map.1 found with ⟨entry, kept, rfl⟩
    rcases List.mem_filter.1 kept with ⟨inside, different⟩
    exact
      ⟨shows entry inside, fun same => by simp [same] at different⟩
  revert each
  generalize losers bundles keeper.sha = remaining
  intro each
  induction remaining generalizing world with
  | nil => exact Relation.ReflTransGen.refl
  | cons losing rest hypothesis =>
      rcases each losing (by simp) with ⟨shown, different⟩
      rw [List.foldl_cons]
      exact
        Relation.ReflTransGen.head
          (Repair.evict shown different (shows keeper member))
          (hypothesis _ fun other inside => each other (by simp [inside]))

/-- Looking at a lock that was stale when listed is at most a repair. -/
theorem repairs_unlocked
    {key : Text}
    (asked : opts.deleteStaleLocks = true)
    (stale :
      key ∈
        scanStaleLocks start.clock opts.lockTtl
          (start.listing (keyRoot bucketPrefix)))
    (world : World) :
    Repairs bucketPrefix opts start world
      (unlocked opts.lockTtl world key) := by
  rcases List.mem_map.1 stale with ⟨entry, kept, rfl⟩
  rcases List.mem_filter.1 kept with ⟨inside, old⟩
  rcases World.mem_listing.1 inside with ⟨below, object, found, modified⟩
  rw [Bool.and_eq_true, ← modified] at old
  unfold unlocked
  split
  · exact Relation.ReflTransGen.refl
  · split
    · exact
        Relation.ReflTransGen.single
          (Repair.unlock asked below old.1 found old.2)
    · exact Relation.ReflTransGen.refl

end Repairs

/-! ## A run -/

section Run

variable {start : World} {prompter : Prompter}

/-- A snapshot shows nothing the listing did not. -/
def RepoSnapshot.Within
    (bucketPrefix : Option Text)
    (start : World)
    (snapshot : RepoSnapshot) : Prop :=
  ∀ refPath,
    snapshot.bundlesAt refPath ⊆ shownBundles bucketPrefix start refPath

theorem RepoSnapshot.Within.wellKeyed
    {snapshot : RepoSnapshot}
    (within : snapshot.Within bucketPrefix start) :
    snapshot.WellKeyed bucketPrefix :=
  fun refPath _ member => (shown_of_mem (within refPath member)).1

/-- Fixing references one by one is a sequence of repairs. -/
theorem repairs_fixMultipleBundles
    (opts : DoctorOpts)
    (prompter : Prompter)
    {snapshot : RepoSnapshot}
    (within : snapshot.Within bucketPrefix start)
    (refPaths : List Text)
    (world : World) :
    Repairs bucketPrefix opts start world
      (run answer
        (foldEach (fixMultipleBundles bucketPrefix opts prompter) snapshot
          refPaths) world).2 := by
  apply
    run_foldEach_ending
      (fun snapshot _ later =>
        snapshot.Within bucketPrefix start ∧
          Repairs bucketPrefix opts start world later)
      (fun _ later => Repairs bucketPrefix opts start world later)
  · rintro snapshot refPath rest state ⟨within, repairs⟩
    rcases
      fixMultipleBundles_cases opts prompter refPath within.wellKeyed
        state with
      ⟨error, outcome⟩ | outcome | ⟨keeper, next, -, outcome, member,
        subset⟩
    · exact Or.inr ⟨error, state, outcome, repairs⟩
    · exact Or.inl ⟨snapshot, state, outcome, within, repairs⟩
    · left
      refine
        ⟨next, _, outcome,
          fun other => List.Subset.trans (subset other) (within other),
          repairs.trans ?_⟩
      exact
        repairs_losers
          (fun entry inside => (shown_of_mem (within refPath inside)).2)
          member state
  · exact fun _ _ holds => holds.2
  · exact ⟨within, Relation.ReflTransGen.refl⟩

/-- A run analyzes the listing, then fixes what it found. -/
theorem run_runInto
    (bucketPrefix : Option Text)
    (opts : DoctorOpts)
    (prompter : Prompter)
    (start : World) :
    ∃ snapshot,
      Analyzing bucketPrefix start snapshot [] ∧
        run answer (runInto bucketPrefix opts prompter) start =
          run answer
            (fixAll bucketPrefix opts prompter
              (start.listing (keyRoot bucketPrefix)) snapshot) start := by
  rcases run_analyzeObjects bucketPrefix start with
    ⟨snapshot, analyzes, analyzed⟩
  rcases
    run_maybeRenderPackchainSection (ε := ManageError) bucketPrefix opts
      (start.listing (keyRoot bucketPrefix)) start with ⟨report, renders⟩
  refine ⟨snapshot, analyzed, ?_⟩
  have listing : join (some (prefixText bucketPrefix)) [] =
      keyRoot bucketPrefix := by
    rw [join_eq, keyRoot_some_prefixText, List.append_nil]
  have lists :
      run answer
          ((Store.list (keyRoot bucketPrefix)).mapError
            ManageError.store) start =
        (.ok (start.listing (keyRoot bucketPrefix)), start) := by
    rw [run_mapError, Store.run_list]
    rfl
  unfold runInto
  simp only [listing]
  rw [run_bind_ok lists, run_bind_ok analyzes, run_bind_ok renders]

theorem Analyzing.within
    {snapshot : RepoSnapshot}
    (analyzed : Analyzing bucketPrefix start snapshot []) :
    snapshot.Within bucketPrefix start := by
  intro refPath
  rw [analyzed.bundlesAt]
  exact List.Subset.refl _

/-- What holds once the bundles are fixed, and the rest of a run keeps. -/
theorem keep_fixAll
    (keeps : World → Prop)
    {objects : List ObjectMeta}
    {snapshot : RepoSnapshot}
    (fixed :
      keeps
        (run answer
          (foldEach (fixMultipleBundles bucketPrefix opts prompter) snapshot
            (dupRefs snapshot)) start).2)
    (heads :
      ∀ world name,
        keeps world →
          keeps (world.put (headKey bucketPrefix) (.text name)))
    (unlocks :
      ∀ world,
        keeps world → opts.deleteStaleLocks = true →
          ∀ key ∈ scanStaleLocks world.clock opts.lockTtl objects,
            ∀ state,
              keeps state → keeps (unlocked opts.lockTtl state key)) :
    keeps
      (run answer (fixAll bucketPrefix opts prompter objects snapshot)
        start).2 := by
  have locks (world : World) (holds : keeps world) :
      keeps
        (run answer
          (listAndHandleStaleLocks opts objects :
            Program ManageError Unit) world).2 := by
    rw [run_listAndHandleStaleLocks]
    split
    next asked =>
        have each := unlocks world holds asked
        revert holds each
        generalize scanStaleLocks world.clock opts.lockTtl objects = keys
        intro holds each
        induction keys generalizing world with
        | nil => exact holds
        | cons key rest hypothesis =>
            rw [List.foldl_cons]
            exact
              hypothesis _ (each key (by simp) world holds)
                fun other inside => each other (by simp [inside])
    next => exact holds
  unfold fixAll
  rw [run_bind]
  revert fixed
  cases run answer
      (foldEach (fixMultipleBundles bucketPrefix opts prompter) snapshot
        (dupRefs snapshot)) start with
  | mk result fixed =>
      intro holds
      cases result with
      | error error => exact holds
      | ok snapshot =>
          simp only
          split
          next =>
              have headed :
                  keeps
                    (run answer (fixHead bucketPrefix prompter snapshot)
                      fixed).2 := by
                rcases fixHead_cases prompter snapshot fixed with
                  same | ⟨name, written⟩
                · rw [same]
                  exact holds
                · rw [written]
                  exact heads fixed name holds
              rw [run_bind]
              revert headed
              cases run answer (fixHead bucketPrefix prompter snapshot)
                  fixed with
              | mk result later =>
                  intro headed
                  cases result with
                  | error error => exact headed
                  | ok snapshot => exact locks later headed
          next => exact locks fixed holds

/-- A run of `doctor` is a sequence of repairs. -/
theorem repairs_runInto
    (bucketPrefix : Option Text)
    (opts : DoctorOpts)
    (prompter : Prompter)
    (start : World) :
    Repairs bucketPrefix opts start start
      (run answer (runInto bucketPrefix opts prompter) start).2 := by
  rcases run_runInto bucketPrefix opts prompter start with
    ⟨snapshot, analyzed, outcome⟩
  rw [outcome]
  apply keep_fixAll (Repairs bucketPrefix opts start start)
  · exact
      repairs_fixMultipleBundles opts prompter analyzed.within
        (dupRefs snapshot) start
  · exact fun world name repairs => repairs.tail Repair.head
  · intro world repairs asked key stale state before
    rw [repairs.clock] at stale
    exact before.trans (repairs_unlocked asked stale state)

end Run

/-! ## What an operator can bring about -/

section Answers

variable {start : World}

/-- Keep one bundle of one reference, and decline everything else. -/
def Prompter.keeping (refPath : Text) (keepIdx : Nat) : Prompter where
  select := fun other => .ok (if other = refPath then keepIdx else 0)
  confirm := fun other => .ok (decide (other = refPath))
  selectHead := .error .cancelled

/-- Decline every eviction, and point `HEAD` at the first branch. -/
def Prompter.declining : Prompter where
  select := fun _ => .ok 0
  confirm := fun _ => .ok false
  selectHead := .ok 0

omit [Platform] in
theorem mem_dupRefs
    {snapshot : RepoSnapshot}
    {refPath : Text} :
    refPath ∈ dupRefs snapshot ↔
      ∃ refEntry,
        snapshot.refs.lookup refPath = some refEntry ∧
          1 < refEntry.bundles.length := by
  unfold dupRefs RepoSnapshot.refPaths
  rw [List.mem_filter, List.mem_insertionSort, ← AList.mem_keys,
    ← AList.lookup_isSome]
  constructor
  · rintro ⟨-, several⟩
    split at several
    next refEntry found => exact ⟨refEntry, found, by simpa using several⟩
    next => cases several
  · rintro ⟨refEntry, found, several⟩
    simp [found, several]

/-- Declining leaves a reference with several bundles as it was. -/
theorem run_fixMultipleBundles_decline
    {prompter : Prompter}
    {snapshot : RepoSnapshot}
    {refPath : Text}
    (member : refPath ∈ dupRefs snapshot)
    (first : prompter.select refPath = .ok 0)
    (declined : prompter.confirm refPath = .ok false)
    (world : World) :
    run answer
        (fixMultipleBundles bucketPrefix opts prompter snapshot refPath)
        world =
      (.ok snapshot, world) := by
  rcases mem_dupRefs.1 member with ⟨refEntry, found, several⟩
  exact
    run_fixMultipleBundles_declined found first
      (List.getElem?_eq_getElem (Nat.zero_lt_of_lt several)) declined world

/-- Evictions of a reference leave none of the losers. -/
theorem foldl_evicted_absent
    {refPath : Text}
    {losing : Sha40}
    {remaining : List Sha40}
    {world : World}
    (gone :
      losing ∈ remaining ∨
        world.get? (bundleAt bucketPrefix refPath losing) = none) :
    (remaining.foldl (evicted bucketPrefix opts refPath) world).get?
      (bundleAt bucketPrefix refPath losing) = none := by
  induction remaining generalizing world with
  | nil =>
      rcases gone with inside | absent
      · cases inside
      · exact absent
  | cons first rest hypothesis =>
      rw [List.foldl_cons]
      apply hypothesis
      rcases gone with inside | absent
      · rcases List.mem_cons.1 inside with rfl | later
        · exact Or.inr get?_evicted_self
        · exact Or.inl later
      · exact Or.inr (absent_evicted absent)

/-- Keeping one bundle of a reference evicts the others. -/
theorem absent_fixMultipleBundles_keeping
    {snapshot : RepoSnapshot}
    {refPath : Text}
    {keepIdx : Nat}
    {keeper : BundleEntry}
    {losing : Sha40}
    (opts : DoctorOpts)
    (analyzed : Analyzing bucketPrefix start snapshot [])
    (chosen :
      (shownBundles bucketPrefix start refPath)[keepIdx]? = some keeper)
    (shown : Shown bucketPrefix start refPath losing)
    (different : keeper.sha ≠ losing)
    (several : 1 < (shownBundles bucketPrefix start refPath).length) :
    (run answer
      (foldEach
        (fixMultipleBundles bucketPrefix opts (.keeping refPath keepIdx))
        snapshot (dupRefs snapshot)) start).2.get?
      (bundleAt bucketPrefix refPath losing) = none := by
  have bundles := analyzed.bundlesAt refPath
  have present : (start.get? keeper.key).isSome := by
    rcases shown_of_mem (List.mem_of_getElem? chosen) with ⟨key, kept⟩
    rw [key]
    exact kept.present
  have loses : losing ∈ losers (snapshot.bundlesAt refPath) keeper.sha := by
    rcases shown.exists_mem with ⟨entry, member, rfl⟩
    rw [bundles]
    exact
      List.mem_map.2
        ⟨entry, List.mem_filter.2 ⟨member, by simpa using different.symm⟩,
          rfl⟩
  apply
    run_foldEach_ending
      (fun accumulated rest world =>
        (refPath ∈ rest ∧ rest ⊆ dupRefs snapshot ∧
          accumulated = snapshot ∧ world = start) ∨
        (accumulated.Within bucketPrefix start ∧
          world.get? (bundleAt bucketPrefix refPath losing) = none))
      (fun _ world =>
        world.get? (bundleAt bucketPrefix refPath losing) = none)
  · rintro accumulated item rest world
      (⟨member, within, rfl, rfl⟩ | ⟨within, absent⟩)
    · left
      by_cases same : item = refPath
      · subst same
        rcases mem_dupRefs.1 (within (List.mem_cons_self ..)) with
          ⟨refEntry, found, -⟩
        have entry := bundlesAt_of_lookup found
        refine
          ⟨_, _,
            run_fixMultipleBundles_confirmed analyzed.within.wellKeyed
              found (by simp [Prompter.keeping]; rfl)
              (by rw [← entry, bundles, chosen])
              (by simp [Prompter.keeping]) present,
            Or.inr ⟨?_, foldl_evicted_absent (Or.inl loses)⟩⟩
        intro other
        exact
          List.Subset.trans (bundlesAt_insert_keepers found other)
            (analyzed.within other)
      · refine
          ⟨accumulated, world,
            run_fixMultipleBundles_decline
              (within (List.mem_cons_self ..))
              (by simp [Prompter.keeping, same])
              (by simp [Prompter.keeping, same]) world,
            Or.inl ⟨?_, ?_, rfl, rfl⟩⟩
        · exact List.mem_of_ne_of_mem (Ne.symm same) member
        · exact fun other later =>
            within (List.mem_cons_of_mem item later)
    · rcases
        fixMultipleBundles_cases opts (.keeping refPath keepIdx) item
          within.wellKeyed world with
        ⟨error, outcome⟩ | outcome |
          ⟨kept, next, confirmed, outcome, -, subset⟩
      · exact Or.inr ⟨error, world, outcome, absent⟩
      · exact Or.inl ⟨accumulated, world, outcome, Or.inr ⟨within, absent⟩⟩
      · have same : item = refPath := by
          simpa [Prompter.keeping] using confirmed
        subst same
        exact
          Or.inl
            ⟨next, _, outcome,
              Or.inr
                ⟨fun other =>
                  List.Subset.trans (subset other) (within other),
                  foldl_evicted_absent (Or.inr absent)⟩⟩
  · rintro accumulated world (⟨member, -⟩ | ⟨-, absent⟩)
    · cases member
    · exact absent
  · left
    refine ⟨?_, List.Subset.refl _, rfl, rfl⟩
    rw [← bundles] at several
    unfold RepoSnapshot.bundlesAt at several
    cases found : snapshot.refs.lookup refPath with
    | none => simp [found] at several
    | some refEntry =>
        exact mem_dupRefs.2 ⟨refEntry, found, by simpa [found] using several⟩

omit [Platform] in
theorem bundleAt_ne_headKey (refPath : Text) (sha : Sha40) :
    bundleAt bucketPrefix refPath sha ≠ headKey bucketPrefix := by
  unfold bundleAt bundlePath headKey
  rw [join_eq, Ne, List.append_cancel_left_eq]
  intro same
  have slash := congrArg (fun text : Text => decide ('/' ∈ text)) same
  simp [lit_eq] at slash

/-- Any bundle beside another one can be evicted. -/
theorem exists_prompter_evicting
    {refPath : Text}
    {losing keeper : Sha40}
    (opts : DoctorOpts)
    (shown : Shown bucketPrefix start refPath losing)
    (different : keeper ≠ losing)
    (beside : Shown bucketPrefix start refPath keeper) :
    ∃ prompter,
      (run answer (runInto bucketPrefix opts prompter) start).2.get?
        (bundleAt bucketPrefix refPath losing) = none := by
  rcases beside.exists_mem with ⟨kept, member, rfl⟩
  rcases List.getElem?_of_mem member with ⟨keepIdx, chosen⟩
  refine ⟨.keeping refPath keepIdx, ?_⟩
  rcases run_runInto bucketPrefix opts (.keeping refPath keepIdx) start with
    ⟨snapshot, analyzed, outcome⟩
  rw [outcome]
  apply
    keep_fixAll fun world =>
      world.get? (bundleAt bucketPrefix refPath losing) = none
  · exact
      absent_fixMultipleBundles_keeping opts analyzed chosen shown different
        (shown.several different beside)
  · intro world name absent
    rw [World.get?_put_ne _ _ _ (bundleAt_ne_headKey refPath losing)]
    exact absent
  · intro _ _ _ key _ world absent
    exact absent_unlocked opts.lockTtl key absent

omit [Platform] in
/-- Stale locks of a list are gone once each was looked at. -/
theorem foldl_unlocked_absent
    {ttl : Int}
    {key : Text}
    {keys : List Text}
    {world : World}
    (gone :
      (key ∈ keys ∧
        ∀ object,
          world.get? key = some object →
            isStale ttl world.clock object.lastModified = true) ∨
      world.get? key = none) :
    (keys.foldl (unlocked ttl) world).get? key = none := by
  induction keys generalizing world with
  | nil =>
      rcases gone with ⟨inside, -⟩ | absent
      · cases inside
      · exact absent
  | cons first rest hypothesis =>
      rw [List.foldl_cons]
      apply hypothesis
      rcases gone with ⟨inside, stale⟩ | absent
      · by_cases same : first = key
        · subst same
          right
          cases found : world.get? first with
          | none => exact absent_unlocked ttl first found
          | some object =>
              simp only [unlocked, found, stale object found, if_true]
              exact World.get?_remove_self _ _
        · left
          refine
            ⟨List.mem_of_ne_of_mem (Ne.symm same) inside,
              fun object found => ?_⟩
          rw [get?_unlocked_ne ttl (Ne.symm same)] at found
          rw [clock_unlocked]
          exact stale object found
      · exact Or.inr (absent_unlocked ttl first absent)

theorem run_fixMultipleBundles_declining
    {snapshot : RepoSnapshot}
    (world : World) :
    run answer
        (foldEach (fixMultipleBundles bucketPrefix opts .declining) snapshot
          (dupRefs snapshot)) world =
      (.ok snapshot, world) := by
  have declines :
      ∃ result,
        run answer
            (foldEach (fixMultipleBundles bucketPrefix opts .declining)
              snapshot (dupRefs snapshot)) world =
            (.ok result, world) ∧
          result = snapshot ∧ [] ⊆ dupRefs snapshot := by
    apply
      run_foldEach_keeping fun accumulated rest =>
        accumulated = snapshot ∧ rest ⊆ dupRefs snapshot
    · rintro _ refPath rest ⟨rfl, within⟩
      exact
        ⟨_, run_fixMultipleBundles_decline (within (List.mem_cons_self ..))
          rfl rfl world, rfl,
          fun other later => within (List.mem_cons_of_mem refPath later)⟩
    · exact ⟨rfl, List.Subset.refl _⟩
  rcases declines with ⟨_, outcome, rfl, -⟩
  exact outcome

omit [Platform] in
/-- What a lock's name ends with. -/
theorem not_isLockKey
    {key : Text}
    (ends : key.getLast? ≠ some 'k') :
    isLockKey key = false := by
  rw [Bool.eq_false_iff]
  intro lock
  rcases List.isSuffixOf_iff_suffix.1 lock with ⟨front, rfl⟩
  exact ends (by simp [lit_eq])

/-- What is listed as a bundle or a chain is still found as branch data. -/
theorem hasBranchData_of_snapshot
    {snapshot : RepoSnapshot}
    {refPath : Text}
    {refEntry : RefSnapshot}
    (analyzed : Analyzing bucketPrefix start snapshot [])
    (found : snapshot.refs.lookup refPath = some refEntry)
    (data : refEntry.hasBranchData = true) :
    hasBranchData
        (start.listing (keyRoot bucketPrefix ++ (refPath ++ ['/']))) =
      true := by
  have listed
      (last : Text)
      (absent : '/' ∉ last)
      (ordinary : last ≠ lit "PROTECTED#")
      (unlocked :
        isLockKey (keyRoot bucketPrefix ++ (refPath ++ '/' :: last)) = false)
      (present :
        (start.get?
          (keyRoot bucketPrefix ++ (refPath ++ '/' :: last))).isSome) :
      hasBranchData
          (start.listing (keyRoot bucketPrefix ++ (refPath ++ ['/']))) =
        true := by
    have below :
        keyRoot bucketPrefix ++ (refPath ++ ['/']) <+:
          keyRoot bucketPrefix ++ (refPath ++ '/' :: last) :=
      ⟨last, by simp⟩
    rcases World.exists_mem_listing.2 ⟨below, present⟩ with
      ⟨entry, member, key⟩
    apply List.any_eq_true.2
    refine ⟨entry, member, ?_⟩
    rw [key, unlocked, ← List.append_assoc, rsplitOnce_append _ absent]
    simpa using ordinary
  rcases Bool.or_eq_true_iff.1 data with bundles | chain
  · have nonempty : refEntry.bundles ≠ [] := by
      simpa using bundles
    rcases List.exists_mem_of_ne_nil _ nonempty with ⟨entry, member⟩
    rw [← bundlesAt_of_lookup found, analyzed.bundlesAt] at member
    have shown := (shown_of_mem member).2
    apply listed (entry.sha.text ++ lit ".bundle")
      (bundle_no_slash entry.sha)
    · intro same
      have lengths := congrArg List.length same
      simp [entry.sha.length_text, lit_eq] at lengths
    · apply not_isLockKey
      simp [List.getLast?_cons, lit_eq]
    · exact shown.present
  · apply listed (lit "chain.json") (by simp [lit_eq])
    · decide +kernel
    · apply not_isLockKey
      simp [lit_eq]
    · apply analyzed.chains
      rw [RepoSnapshot.chainAt, found]
      exact chain

/-- Pointing `HEAD` at the first branch succeeds, and touches no lock. -/
theorem run_fixHead_declining
    {snapshot : RepoSnapshot}
    (analyzed : Analyzing bucketPrefix start snapshot []) :
    ∃ next later,
      run answer (fixHead bucketPrefix .declining snapshot) start =
          (.ok next, later) ∧
        later.clock = start.clock ∧
          ∀ key, isLockKey key = true → later.get? key = start.get? key := by
  unfold fixHead
  simp only
  split
  · exact ⟨_, _, rfl, rfl, fun _ _ => rfl⟩
  next nonempty =>
      generalize listed : List.filter _ snapshot.refPaths = candidates
        at nonempty ⊢
      cases candidates with
      | nil => exact (nonempty rfl).elim
      | cons newHead rest =>
          have member : newHead ∈ newHead :: rest :=
            List.mem_cons_self ..
          rw [← listed, List.mem_filter, Bool.and_eq_true] at member
          have data := member.2.2
          split at data
          next refEntry found =>
              have rechecked :=
                hasBranchData_of_snapshot analyzed found data
              refine
                ⟨{ snapshot with head := some newHead },
                  start.put (headKey bucketPrefix) (.text newHead), ?_, rfl,
                  fun key lock => ?_⟩
              · simp only [Prompter.declining, ofExcept_ok, done_bind,
                  List.getElem?_cons_zero, join_eq, keyRoot_some_prefixText,
                  run_bind, run_mapError, Store.run_list, Except.mapError,
                  rechecked, Bool.not_true, Bool.false_eq_true, if_false,
                  Store.run_putBytes, headKey]
                rfl
              · apply World.get?_put_ne
                rintro rfl
                rw [headKey, join_eq, not_isLockKey (by simp [lit_eq])]
                  at lock
                cases lock
          next => cases data

/-- Any stale lock below the prefix can be deleted. -/
theorem exists_prompter_unlocking
    {key : Text}
    {object : Object}
    (asked : opts.deleteStaleLocks = true)
    (below : keyRoot bucketPrefix <+: key)
    (lock : isLockKey key = true)
    (found : start.get? key = some object)
    (stale :
      isStale opts.lockTtl start.clock object.lastModified = true) :
    ∃ prompter,
      (run answer (runInto bucketPrefix opts prompter) start).2.get? key =
        none := by
  refine ⟨.declining, ?_⟩
  rcases run_runInto bucketPrefix opts .declining start with
    ⟨snapshot, analyzed, outcome⟩
  have locks
      (later : World)
      (clock : later.clock = start.clock)
      (kept : later.get? key = start.get? key) :
      (run answer
        (listAndHandleStaleLocks opts
          (start.listing (keyRoot bucketPrefix)) :
          Program ManageError Unit) later).2.get? key = none := by
    rw [run_listAndHandleStaleLocks, if_pos asked]
    apply foldl_unlocked_absent
    left
    refine ⟨?_, fun stored same => ?_⟩
    · refine
        List.mem_map.2
          ⟨⟨key, object.lastModified⟩,
            List.mem_filter.2
              ⟨World.mem_listing.2 ⟨below, object, found, rfl⟩, ?_⟩, rfl⟩
      rw [lock, clock, stale]
      rfl
    · rw [kept, found] at same
      cases same
      rw [clock]
      exact stale
  rw [outcome]
  unfold fixAll
  rw [run_bind_ok (run_fixMultipleBundles_declining start)]
  split
  · rcases run_fixHead_declining analyzed with
      ⟨next, later, heads, clock, kept⟩
    rw [run_bind_ok heads]
    exact locks later clock (kept key lock)
  · exact locks start rfl rfl

end Answers

end GitRemoteObjectStore.Doctor
