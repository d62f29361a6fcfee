import GitRemoteObjectStore.Library.Faults
import GitRemoteObjectStore.PackchainSections
import GitRemoteObjectStore.Interference

/-!
# `delete-branch` with failing deletions

The sweep of a branch goes on after a deletion that fails, and reports every
key whose deletion failed.  A later run, nothing failing any more, removes
what is left.  A baseline bundle that a readable manifest names is left to
the collector in both.
-/

namespace GitRemoteObjectStore

open CallProgram Prog GitRemoteObjectStore.Bundle

/-! ## Failing deletions -/

/-- A failing deletion; a key that is not there is no failure. -/
structure DeleteFailure extends Fault ObjectStoreError where
  genuine : ∀ key, error ≠ .notFound key

/-- The plan under which the deletions of some keys fail. -/
def failingDeletes
    (failures : Text → Option DeleteFailure) :
    FaultPlan Call ObjectStoreError
  | _, .delete key => (failures key).map DeleteFailure.toFault
  | _, _ => none

/-- The key a call deletes. -/
def Call.deleted? : Call → Option Text
  | .delete key => some key
  | _ => none

section Account

variable
    [Platform]
    {bucketPrefix : Option Text}
    {refName : RefName}
    {failures : Text → Option DeleteFailure}

/-- The store whose deletions of some keys fail. -/
abbrev troubled (failures : Text → Option DeleteFailure) :
    Handler Call Reply (World × Nat) :=
  faulty answer failed (failingDeletes failures)

/-- The baseline bundle a deletion leaves, if its manifest is readable. -/
def DeferredBundle
    (bucketPrefix : Option Text)
    (refName : RefName)
    (world : World)
    (key : Text) : Prop :=
  ∃ chain : ChainManifest,
    loadedChain (world.body? (chainKey bucketPrefix refName)) =
        .ok (some chain) ∧
      key = bundleKey bucketPrefix refName chain.fullAt ∧
      (world.get? key).isSome

theorem mem_deletable {world : World} {entry : ObjectMeta} :
    entry ∈ deletable bucketPrefix refName world ↔
      entry ∈ world.listing (refListingPrefix bucketPrefix refName) ∧
        entry.key ≠ lockKey bucketPrefix refName := by
  rw [deletable, List.mem_filter, decide_eq_true_iff]

theorem deferredBaseline_eq_some {world : World} {key : Text} :
    (deferredBaseline bucketPrefix refName
        (deletable bucketPrefix refName world) world).map
        (bundleKey bucketPrefix refName) =
      some key ↔
    DeferredBundle bucketPrefix refName world key := by
  rw [deferredBaseline_deletable]
  unfold deferredBaseline DeferredBundle
  have listed (sha : Sha40) :
      ((world.listing (refListingPrefix bucketPrefix refName)).any
          fun entry =>
            entry.key == bundleKey bucketPrefix refName sha) = true ↔
        (world.get? (bundleKey bucketPrefix refName sha)).isSome := by
    have found :=
      @World.exists_mem_listing world
        (bundleKey bucketPrefix refName sha)
        (refListingPrefix bucketPrefix refName)
    have under :
        refListingPrefix bucketPrefix refName <+:
          bundleKey bucketPrefix refName sha := by
      rw [bundleKey_eq, refListingPrefix_prefix_iff]
      exact Or.inl rfl
    rw [List.any_eq_true]
    simp only [beq_iff_eq]
    rw [found]
    exact and_iff_right under
  cases loadedChain (world.body? (chainKey bucketPrefix refName)) with
  | error error => simp
  | ok loaded =>
      cases loaded with
      | none => simp
      | some chain =>
          simp only [Except.ok.injEq, Option.some.injEq, exists_eq_left']
          split
          next present =>
              rw [Option.map_some, Option.some.injEq]
              constructor
              · rintro rfl
                exact ⟨rfl, (listed _).1 present⟩
              · rintro ⟨rfl, -⟩
                rfl
          next absent =>
              simp only [Option.map_none, reduceCtorEq, false_iff]
              rintro ⟨rfl, stored⟩
              exact absent ((listed _).2 stored)

/-! ## The sweep -/

/-- One turn of the sweep. -/
def sweepTurn
    (deferred : Option Text)
    (undeleted : List Text)
    (entry : ObjectMeta) : Program ManageError (List Text) :=
  if deferred = some entry.key then pure undeleted
  else
    (Store.delete entry.key).attempt >>= fun
      | .ok () => pure undeleted
      | .error (.notFound _) => pure undeleted
      | .error _ => pure (undeleted ++ [entry.key])

/-- The bucket after a deletion was tried. -/
def tried
    (failures : Text → Option DeleteFailure)
    (world : World)
    (entry : ObjectMeta) : World :=
  if (failures entry.key).all fun failure => failure.lands then
    world.remove entry.key
  else world

/-- The keys among these whose deletion fails. -/
def failingKeys
    (failures : Text → Option DeleteFailure)
    (entries : List ObjectMeta) : List Text :=
  (entries.map ObjectMeta.key).filter fun key => (failures key).isSome

omit [Platform] in
theorem get?_tried
    (entries : List ObjectMeta)
    (world : World)
    (key : Text) :
    (entries.foldl (tried failures) world).get? key =
      if key ∈ entries.map ObjectMeta.key ∧
          (failures key).all (fun failure => failure.lands) = true then
        none
      else world.get? key := by
  induction entries generalizing world with
  | nil => simp
  | cons entry rest hypothesis =>
      rw [List.foldl_cons, hypothesis, tried]
      by_cases same : key = entry.key
      · subst same
        cases lands :
            (failures entry.key).all fun failure => failure.lands with
        | true => simp
        | false => simp
      · have apart :
            (if (failures entry.key).all fun failure => failure.lands then
                world.remove entry.key
              else world).get? key =
            world.get? key := by
          split
          · exact World.get?_remove_ne _ _ same
          · rfl
        rw [apart]
        simp [same]

omit [Platform] in
/-- A turn that is not deferred asks for one deletion. -/
theorem sweepTurn_of_ne
    {deferred : Option Text}
    {entry : ObjectMeta}
    (swept : deferred ≠ some entry.key)
    (undeleted : List Text) :
    sweepTurn deferred undeleted entry =
      .call (.delete entry.key) fun
        | .ok () => .done undeleted
        | .error (.notFound _) => .done undeleted
        | .error _ => .done (undeleted ++ [entry.key]) := by
  unfold sweepTurn Store.delete
  rw [if_neg swept, attempt_call, call_bind]
  congr 1
  funext reply
  rcases reply with error | done
  · cases error <;> rfl
  · rfl

/-- A deletion is reported as it went. -/
theorem run_sweepTurn
    {deferred : Option Text}
    {entry : ObjectMeta}
    (swept : deferred ≠ some entry.key)
    (undeleted : List Text)
    (world : World)
    (count : Nat) :
    run (troubled failures) (sweepTurn deferred undeleted entry)
        (world, count) =
      (.ok (undeleted ++ failingKeys failures [entry]),
        (tried failures world entry, count + 1)) := by
  have removed :
      (answer (.delete entry.key) world).2 = world.remove entry.key := by
    cases found : world.get? entry.key with
    | none => simp [answer, found, world.remove_of_absent _ found]
    | some object => simp [answer, found]
  rw [sweepTurn_of_ne swept, run_call]
  unfold tried failingKeys
  cases failing : failures entry.key with
  | none =>
      have answered :
          troubled failures (.delete entry.key) (world, count) =
            ((answer (.delete entry.key) world).1,
              (world.remove entry.key, count + 1)) := by
        rw [← removed]
        apply faulty_none
        simp [failingDeletes, failing]
      rw [answered]
      cases found : world.get? entry.key with
      | none => simp [answer, found, failing]
      | some object => simp [answer, found, failing]
  | some failure =>
      have broken :
          troubled failures (.delete entry.key) (world, count) =
            (.error failure.error,
              (if failure.lands then world.remove entry.key else world,
                count + 1)) := by
        rw [← removed]
        simp only [troubled, faulty, failingDeletes, failing, failed,
          Option.map_some]
      rw [broken]
      have genuine := failure.genuine
      cases reported : failure.error with
      | notFound key => exact absurd reported (genuine key)
      | _ => simp [failing]

theorem issued_sweepTurn
    {deferred : Option Text}
    {entry : ObjectMeta}
    (swept : deferred ≠ some entry.key)
    (undeleted : List Text)
    (state : World × Nat) :
    issued (troubled failures) (sweepTurn deferred undeleted entry)
        state =
      [.delete entry.key] := by
  rw [sweepTurn_of_ne swept, issued]
  congr 1
  rcases (troubled failures (.delete entry.key) state).1 with error | done
  · cases error <;> rfl
  · rfl

/-- The sweep tries every key once and reports those that fail. -/
theorem run_sweep
    (deferred : Option Text)
    (entries : List ObjectMeta)
    (undeleted : List Text)
    (world : World)
    (count : Nat) :
    let trying :=
      entries.filter fun entry => deferred ≠ some entry.key
    ∃ later,
      run (troubled failures)
          (foldEach (sweepTurn deferred) undeleted entries)
          (world, count) =
        (.ok (undeleted ++ failingKeys failures trying),
          (trying.foldl (tried failures) world, later)) ∧
      issued (troubled failures)
          (foldEach (sweepTurn deferred) undeleted entries)
          (world, count) =
        trying.map fun entry => .delete entry.key := by
  induction entries generalizing undeleted world count with
  | nil => exact ⟨count, by simp [failingKeys], rfl⟩
  | cons entry rest hypothesis =>
      intro trying
      by_cases left : deferred = some entry.key
      · have skipped :
            foldEach (sweepTurn deferred) undeleted (entry :: rest) =
              foldEach (sweepTurn deferred) undeleted rest := by
          rw [foldEach_cons, sweepTurn, if_pos left]
          rfl
        have same :
            trying = rest.filter fun entry => deferred ≠ some entry.key :=
          List.filter_cons_of_neg (by simpa using left)
        rw [skipped, same]
        exact hypothesis undeleted world count
      · have first :=
          @run_sweepTurn _ failures deferred entry left undeleted world
            count
        have asked :=
          @issued_sweepTurn _ failures deferred entry left undeleted
            (world, count)
        have same :
            trying =
              entry ::
                rest.filter fun entry => deferred ≠ some entry.key :=
          List.filter_cons_of_pos (by simpa using left)
        rcases
          hypothesis (undeleted ++ failingKeys failures [entry])
            (tried failures world entry) (count + 1) with
          ⟨later, ran, issues⟩
        refine ⟨later, ?_, ?_⟩
        · rw [foldEach_cons, run_bind_ok first, ran, same,
            List.append_assoc]
          unfold failingKeys
          rw [← List.filter_append, ← List.map_append]
          rfl
        · rw [foldEach_cons, issued_bind_ok first, asked, issues, same]
          rfl

/-! ## The locked section -/

omit [Platform] in
theorem filterMap_deleted_eq_nil
    {requests : List Call}
    (quiet : ∀ request ∈ requests, request.deleted? = none) :
    requests.filterMap Call.deleted? = [] :=
  List.filterMap_eq_nil_iff.2 quiet

/-- The count of a report is that of the keys tried. -/
theorem length_sweepable (refName : RefName) (world : World) :
    (deletable bucketPrefix refName world).length -
        (if ((deferredBaseline bucketPrefix refName
              (deletable bucketPrefix refName world) world).map
              (bundleKey bucketPrefix refName)).isSome then 1 else 0) =
      (sweepable bucketPrefix refName world).length := by
  unfold sweepable
  have keys :
      ((deletable bucketPrefix refName world).map
        ObjectMeta.key).Nodup :=
    (List.filter_sublist.map ObjectMeta.key).nodup
      (World.listing_keys_nodup _)
  cases deferred :
      (deferredBaseline bucketPrefix refName
        (deletable bucketPrefix refName world) world).map
        (bundleKey bucketPrefix refName) with
  | none => simp
  | some key =>
      rcases deferredBaseline_eq_some.1 deferred with
        ⟨chain, -, rfl, stored⟩
      have listed :
          bundleKey bucketPrefix refName chain.fullAt ∈
            (deletable bucketPrefix refName world).map
              ObjectMeta.key := by
        have under :
            refListingPrefix bucketPrefix refName <+:
              bundleKey bucketPrefix refName chain.fullAt := by
          rw [bundleKey_eq, refListingPrefix_prefix_iff]
          exact Or.inl rfl
        rcases World.exists_mem_listing.2 ⟨under, stored⟩ with
          ⟨entry, member, same⟩
        refine List.mem_map.2 ⟨entry, mem_deletable.2 ⟨member, ?_⟩, same⟩
        rw [same, bundleKey_eq, lockKey_eq, Ne, Slot.key_inj]
        intro equal
        cases equal
      have erased := keys.erase_eq_filter
        (bundleKey bucketPrefix refName chain.fullAt)
      have lengths := List.length_erase_of_mem listed
      rw [erased, List.filter_map, List.length_map, List.length_map]
        at lengths
      rw [Option.isSome_some, if_pos rfl, ← lengths]
      congr 1
      apply List.filter_congr
      intro entry _
      rw [Bool.eq_iff_iff, Function.comp_apply, bne_iff_ne,
        decide_eq_true_iff, Ne, Ne, Option.some.injEq]
      exact not_congr eq_comm

theorem run_list_troubled
    (start : Text)
    (world : World)
    (count : Nat) :
    run (troubled failures)
        ((Store.list start).mapError ManageError.store)
        (world, count) =
      (.ok (world.listing start), (world, count + 1)) :=
  rfl

/-- A sweep under a plan, when there is something to sweep. -/
theorem run_deleteBranchUnderLock_troubled
    {world : World}
    (deletes : BranchDeletes bucketPrefix refName world)
    (count : Nat) :
    let trying := sweepable bucketPrefix refName world
    let undeleted := failingKeys failures trying
    ∃ later,
      run (troubled failures) (deleteBranchUnderLock bucketPrefix refName)
          (world, count) =
        (if undeleted = [] then .ok (.deleted trying.length)
          else .error (.partialDelete undeleted trying.length),
          (trying.foldl (tried failures)
            (deferring bucketPrefix refName
              (deletable bucketPrefix refName world) world),
            later)) ∧
      (issued (troubled failures)
          (deleteBranchUnderLock bucketPrefix refName)
          (world, count)).filterMap Call.deleted? =
        trying.map ObjectMeta.key := by
  intro trying undeleted
  rcases deletes with ⟨occupied, unmarked⟩
  have listed :
      (world.listing (refListingPrefix bucketPrefix refName)).filter
          (fun entry => entry.key ≠ lockKey bucketPrefix refName) =
        deletable bucketPrefix refName world :=
    rfl
  have spared :
      ∀ number request,
        Call.deleted? request = none →
          failingDeletes failures number request = none := by
    intro number request quiet
    cases request with
    | delete key => cases quiet
    | _ => rfl
  have reads :
      ∀ request : Call,
        request.Reads → Call.deleted? request = none := by
    intro request reading
    cases request with
    | delete key => cases reading
    | _ => rfl
  rcases
    @run_faulty_of_issues _ _ _ _ _ _ answer failed
      (failingDeletes failures) _ _ credible_answer spared _
      (@issues_tryWriteBaselineTombstone _ _ reads bucketPrefix refName
        ManageError (deletable bucketPrefix refName world)
        fun _ _ => rfl)
      world (count + 1) with
    ⟨written, tombstone, quiet⟩
  rw [run_tryWriteBaselineTombstone] at tombstone
  have counted := @length_sweepable _ bucketPrefix refName world
  have chosen :
      (deletable bucketPrefix refName world).filter
          (fun entry =>
            (deferredBaseline bucketPrefix refName
              (deletable bucketPrefix refName world) world).map
              (bundleKey bucketPrefix refName) ≠ some entry.key) =
        trying :=
    rfl
  generalize
    (deferredBaseline bucketPrefix refName
      (deletable bucketPrefix refName world) world).map
      (bundleKey bucketPrefix refName) = deferred at tombstone counted chosen
  rcases
    @run_sweep _ failures deferred (deletable bucketPrefix refName world) []
      (deferring bucketPrefix refName
        (deletable bucketPrefix refName world) world) written with
    ⟨sweptAt, sweep, asked⟩
  rw [chosen] at sweep asked
  rcases
    @run_faulty_of_issues _ _ _ _ _ _ answer failed
      (failingDeletes failures) _ _ credible_answer spared _
      (@issues_verifyNoOrphanProtectedAfterDelete _ _ reads bucketPrefix
        refName ManageError)
      (trying.foldl (tried failures)
        (deferring bucketPrefix refName
          (deletable bucketPrefix refName world) world))
      sweptAt with
    ⟨probedAt, probe, silent⟩
  rw [run_verifyNoOrphanProtectedAfterDelete] at probe
  have quietSweep :
      (trying.map fun entry => Call.delete entry.key).filterMap
          Call.deleted? =
        trying.map ObjectMeta.key := by
    rw [List.filterMap_map, ← List.filterMap_eq_map]
    rfl
  unfold deleteBranchUnderLock
  rw [run_bind_ok (run_list_troubled _ _ _),
    issued_bind_ok (run_list_troubled _ _ _)]
  simp only [listed, List.isEmpty_iff, occupied, if_false, unmarked,
    Bool.false_eq_true]
  rw [run_bind_ok tombstone, issued_bind_ok tombstone]
  change
    ∃ later,
      run _ (foldEach (sweepTurn deferred) [] _ >>= _) _ = _ ∧
        List.filterMap _
          (_ ++ (_ ++ issued _ (foldEach (sweepTurn deferred) [] _ >>= _)
            _)) = _
  rw [run_bind_ok sweep, issued_bind_ok sweep, asked]
  simp only [List.nil_append, counted]
  split
  next =>
      rw [run_bind_ok probe, issued_bind_ok probe]
      refine ⟨probedAt, rfl, ?_⟩
      rw [List.filterMap_append, List.filterMap_append,
        List.filterMap_append, List.filterMap_append,
        filterMap_deleted_eq_nil quiet, filterMap_deleted_eq_nil silent,
        quietSweep]
      simp [issued_mapError, Store.list, issued, Call.deleted?]
  next =>
      refine ⟨sweptAt, rfl, ?_⟩
      rw [List.filterMap_append, List.filterMap_append,
        List.filterMap_append, filterMap_deleted_eq_nil quiet, quietSweep]
      simp [issued_mapError, Store.list, issued, Call.deleted?]

/-! ## A later run -/

omit [Platform] in
theorem get?_locked_ne
    {world : World}
    {lock key : Text}
    (different : key ≠ lock) :
    (world.locked lock).get? key = world.get? key := by
  rw [World.locked, World.get?_put_ne _ _ _ different,
    World.get?_remove_ne _ _ different]

/-- The keys of a branch, but for its lock. -/
def BranchKey
    (bucketPrefix : Option Text)
    (refName : RefName)
    (key : Text) : Prop :=
  refListingPrefix bucketPrefix refName <+: key ∧
    key ≠ lockKey bucketPrefix refName

theorem mem_map_deletable {world : World} {key : Text} :
    key ∈ (deletable bucketPrefix refName world).map ObjectMeta.key ↔
      BranchKey bucketPrefix refName key ∧ (world.get? key).isSome := by
  rw [List.mem_map]
  simp only [mem_deletable]
  constructor
  · rintro ⟨entry, ⟨listed, different⟩, rfl⟩
    rcases World.exists_mem_listing.1 ⟨entry, listed, rfl⟩ with
      ⟨under, present⟩
    exact ⟨⟨under, different⟩, present⟩
  · rintro ⟨⟨under, different⟩, present⟩
    rcases World.exists_mem_listing.2 ⟨under, present⟩ with
      ⟨entry, listed, rfl⟩
    exact ⟨entry, ⟨listed, different⟩, rfl⟩

/-- The keys a sweep tries are those of the branch but a deferred one. -/
theorem mem_map_sweepable {world : World} {key : Text} :
    key ∈ (sweepable bucketPrefix refName world).map ObjectMeta.key ↔
      BranchKey bucketPrefix refName key ∧ (world.get? key).isSome ∧
        ¬ DeferredBundle bucketPrefix refName world key := by
  rw [← deferredBaseline_eq_some, ← and_assoc, ← mem_map_deletable,
    sweepable, List.mem_map, List.mem_map]
  constructor
  · rintro ⟨entry, member, rfl⟩
    rw [List.mem_filter, decide_eq_true_iff] at member
    exact ⟨⟨entry, member.1, rfl⟩, member.2⟩
  · rintro ⟨⟨entry, member, rfl⟩, undeferred⟩
    exact
      ⟨entry,
        List.mem_filter.2 ⟨member, decide_eq_true undeferred⟩, rfl⟩

/-- A tombstone is no key of a branch. -/
theorem get?_deferring
    {world : World}
    {entries : List ObjectMeta}
    {key : Text}
    (under : refListingPrefix bucketPrefix refName <+: key) :
    (deferring bucketPrefix refName entries world).get? key =
      world.get? key := by
  unfold deferring
  split
  · unfold World.tombstone
    rw [World.get?_put_ne]
    · rfl
    · rintro rfl
      rw [refListingPrefix_prefix_iff] at under
      exact under
  · rfl

omit [Platform] in
/-- A listing has no marker when no stored key of it is one. -/
theorem unmarked_iff {world : World} {start : Text} :
    entriesHaveProtectedMarker (world.listing start) = false ↔
      ∀ key, start <+: key → (world.get? key).isSome →
        isMarkerKey key = false := by
  have any :
      entriesHaveProtectedMarker (world.listing start) =
        (world.listing start).any fun entry => isMarkerKey entry.key :=
    rfl
  rw [any, List.any_eq_false]
  constructor
  · intro unmarked key under present
    rcases World.exists_mem_listing.2 ⟨under, present⟩ with
      ⟨entry, listed, rfl⟩
    exact Bool.eq_false_iff.2 (unmarked entry listed)
  · intro unmarked entry listed
    rcases World.exists_mem_listing.1 ⟨entry, listed, rfl⟩ with
      ⟨under, present⟩
    exact Bool.eq_false_iff.1 (unmarked entry.key under present)

theorem unmarked_deletable
    {world : World}
    (unmarked :
      entriesHaveProtectedMarker
          (world.listing (refListingPrefix bucketPrefix refName)) =
        false) :
    entriesHaveProtectedMarker (deletable bucketPrefix refName world) =
      false := by
  have any (entries : List ObjectMeta) :
      entriesHaveProtectedMarker entries =
        entries.any fun entry => isMarkerKey entry.key :=
    rfl
  rw [any, List.any_eq_false] at unmarked ⊢
  exact fun entry member => unmarked entry (mem_deletable.1 member).1

theorem deferredBundle_locked {world : World} {key : Text} :
    DeferredBundle bucketPrefix refName
        (world.locked (lockKey bucketPrefix refName)) key ↔
      DeferredBundle bucketPrefix refName world key := by
  have chain :
      (world.locked (lockKey bucketPrefix refName)).body?
          (chainKey bucketPrefix refName) =
        world.body? (chainKey bucketPrefix refName) := by
    unfold World.body?
    rw [get?_locked_ne]
    rw [chainKey_eq, lockKey_eq, Ne, Slot.key_inj]
    intro same
    cases same
  have bundle (sha : Sha40) :
      (world.locked (lockKey bucketPrefix refName)).get?
          (bundleKey bucketPrefix refName sha) =
        world.get? (bundleKey bucketPrefix refName sha) := by
    apply get?_locked_ne
    rw [bundleKey_eq, lockKey_eq, Ne, Slot.key_inj]
    intro same
    cases same
  unfold DeferredBundle
  rw [chain]
  constructor
  · rintro ⟨found, loaded, rfl, stored⟩
    exact ⟨found, loaded, rfl, by rwa [bundle] at stored⟩
  · rintro ⟨found, loaded, rfl, stored⟩
    exact ⟨found, loaded, rfl, by rwa [bundle]⟩

/-- What `delete-branch` leaves is what its locked section does. -/
theorem run_deleteBranch
    {world : World}
    {ttl : Int}
    (unmarked :
      entriesHaveProtectedMarker
          (world.listing (refListingPrefix bucketPrefix refName)) =
        false)
    (free :
      world.lockFree ttl world.clock (lockKey bucketPrefix refName) =
        true) :
    (run answer (deleteBranch bucketPrefix refName true ttl) world).2 =
      if world.listing (refListingPrefix bucketPrefix refName) = [] then
        world
      else
        (run answer (deleteBranchUnderLock bucketPrefix refName)
          (world.locked (lockKey bucketPrefix refName))).2.remove
          (lockKey bucketPrefix refName) := by
  unfold deleteBranch
  simp only [run_bind, run_mapError, Store.run_list, Except.mapError,
    List.isEmpty_iff]
  split
  · rfl
  · simp only [run_bind, run_mapError, Store.run_list, Except.mapError,
      unmarked, Bool.false_eq_true, if_false, Bool.not_true, run_nowUtc,
      run_holdingLock world free]
    cases
        (run answer (deleteBranchUnderLock bucketPrefix refName)
          (world.locked (lockKey bucketPrefix refName))).1 with
    | error error => rfl
    | ok result => rfl

/-- A run in which nothing fails leaves a deferred bundle at most. -/
theorem deferred_of_deleteBranch
    {world : World}
    {ttl : Int}
    (unmarked :
      entriesHaveProtectedMarker
          (world.listing (refListingPrefix bucketPrefix refName)) =
        false)
    (free :
      world.lockFree ttl world.clock (lockKey bucketPrefix refName) = true)
    {key : Text}
    (under : refListingPrefix bucketPrefix refName <+: key)
    (left :
      ((run answer (deleteBranch bucketPrefix refName true ttl)
        world).2.get? key).isSome) :
    DeferredBundle bucketPrefix refName world key := by
  rw [run_deleteBranch unmarked free] at left
  split at left
  next empty =>
      rcases World.exists_mem_listing.2 ⟨under, left⟩ with
        ⟨entry, listed, -⟩
      rw [empty] at listed
      cases listed
  next =>
      by_cases lock : key = lockKey bucketPrefix refName
      · rw [lock, World.get?_remove_self] at left
        cases left
      · rw [World.get?_remove_ne _ _ lock] at left
        have branch : BranchKey bucketPrefix refName key := ⟨under, lock⟩
        by_cases deletes :
            BranchDeletes bucketPrefix refName
              (world.locked (lockKey bucketPrefix refName))
        · rcases run_deleteBranchUnderLock deletes with ⟨number, ran⟩
          rw [ran, get?_sweptRef] at left
          split at left
          · cases left
          next stays =>
              rw [get?_deferring under] at left
              by_contra undeferred
              apply stays
              apply mem_map_sweepable.2
              exact
                ⟨branch, left,
                  fun deferred =>
                    undeferred (deferredBundle_locked.1 deferred)⟩
        · rw [(run_deleteBranchUnderLock_refused deletes).2] at left
          exfalso
          apply deletes
          constructor
          · have member := mem_map_deletable.2 ⟨branch, left⟩
            intro empty
            rw [empty] at member
            cases member
          · apply unmarked_deletable
            rw [unmarked_iff] at unmarked ⊢
            intro other below present
            by_cases same : other = lockKey bucketPrefix refName
            · rw [same]
              exact isMarkerKey_lockKey refName
            · rw [get?_locked_ne same] at present
              exact unmarked other below present

/-! ## The account of a sweep -/

/-- What a sweep reports, and what it and a later run leave. -/
structure SweepAccount
    (bucketPrefix : Option Text)
    (refName : RefName)
    (failures : Text → Option DeleteFailure)
    (world : World)
    (outcome : Except ManageError DeleteBranchResult)
    (attempts : List Text)
    (last : World) : Prop where
  once : attempts.Nodup
  /-- What is tried is what is listed, but for the lock and the baseline. -/
  attempted :
    ∀ key,
      key ∈ attempts ↔
        BranchKey bucketPrefix refName key ∧ (world.get? key).isSome ∧
          ¬ DeferredBundle bucketPrefix refName world key
  succeeds :
    (∃ result, outcome = .ok result) ↔
      ∀ key ∈ attempts, failures key = none
  reported :
    (∃ result, outcome = .ok result) ∨
      ∃ undeleted,
        outcome = .error (.partialDelete undeleted attempts.length) ∧
          undeleted.Nodup ∧
          ∀ key,
            key ∈ undeleted ↔ key ∈ attempts ∧ (failures key).isSome
  /-- After a success and the release, only the baseline is left. -/
  finished :
    ∀ result,
      outcome = .ok result →
        ∀ key,
          refListingPrefix bucketPrefix refName <+: key →
            ((run answer (releaseLock (lockKey bucketPrefix refName))
              last).2.get? key).isSome →
              DeferredBundle bucketPrefix refName world key
  /-- What is deferred is left to the collector. -/
  tombstoned :
    ∀ key,
      DeferredBundle bucketPrefix refName world key →
        ∃ runId,
          (last.body?
              (baselineTombstoneKey (prefixText bucketPrefix)
                runId)).bind (tombstonedKey bucketPrefix) =
            some key
  /-- A later run removes what this one left. -/
  retried :
    ∀ later ttl,
      (∀ key, key ≠ lockKey bucketPrefix refName →
        later.get? key = last.get? key) →
        later.lockFree ttl later.clock (lockKey bucketPrefix refName) =
          true →
          ∀ key,
            refListingPrefix bucketPrefix refName <+: key →
              ((run answer (deleteBranch bucketPrefix refName true ttl)
                later).2.get? key).isSome →
                DeferredBundle bucketPrefix refName later key

omit [Platform] in
theorem mem_failingKeys {entries : List ObjectMeta} {key : Text} :
    key ∈ failingKeys failures entries ↔
      key ∈ entries.map ObjectMeta.key ∧ (failures key).isSome := by
  rw [failingKeys, List.mem_filter]

theorem nodup_sweepable (refName : RefName) (world : World) :
    ((sweepable bucketPrefix refName world).map ObjectMeta.key).Nodup :=
  ((List.filter_sublist.trans List.filter_sublist).map
    ObjectMeta.key).nodup (World.listing_keys_nodup _)

/-- A later run, from what a sweep left but for the lock. -/
theorem deferred_of_retry
    {world last later : World}
    {ttl : Int}
    (unmarked :
      entriesHaveProtectedMarker
          (world.listing (refListingPrefix bucketPrefix refName)) =
        false)
    (left :
      ∀ key, refListingPrefix bucketPrefix refName <+: key →
        (last.get? key).isSome → (world.get? key).isSome)
    (resumes :
      ∀ key, key ≠ lockKey bucketPrefix refName →
        later.get? key = last.get? key)
    (free :
      later.lockFree ttl later.clock (lockKey bucketPrefix refName) = true)
    {key : Text}
    (under : refListingPrefix bucketPrefix refName <+: key)
    (present :
      ((run answer (deleteBranch bucketPrefix refName true ttl)
        later).2.get? key).isSome) :
    DeferredBundle bucketPrefix refName later key := by
  apply deferred_of_deleteBranch _ free under present
  rw [unmarked_iff] at unmarked ⊢
  intro other below stored
  by_cases same : other = lockKey bucketPrefix refName
  · rw [same]
    exact isMarkerKey_lockKey refName
  · rw [resumes other same] at stored
    exact unmarked other below (left other below stored)

/-- A deferred bundle is one of the branch's objects. -/
theorem DeferredBundle.branchKey
    {world : World}
    {key : Text}
    (deferred : DeferredBundle bucketPrefix refName world key) :
    BranchKey bucketPrefix refName key ∧ (world.get? key).isSome := by
  rcases deferred with ⟨chain, -, rfl, stored⟩
  refine ⟨⟨?_, ?_⟩, stored⟩
  · rw [bundleKey_eq, refListingPrefix_prefix_iff]
    exact Or.inl rfl
  · rw [bundleKey_eq, lockKey_eq, Ne, Slot.key_inj]
    intro same
    cases same

theorem run_deleteBranchUnderLock_empty
    {world : World}
    (empty : deletable bucketPrefix refName world = [])
    (count : Nat) :
    run (troubled failures) (deleteBranchUnderLock bucketPrefix refName)
          (world, count) =
        (.ok .alreadyGone, (world, count + 1)) ∧
      (issued (troubled failures)
          (deleteBranchUnderLock bucketPrefix refName)
          (world, count)).filterMap Call.deleted? =
        [] := by
  have listed :
      (world.listing (refListingPrefix bucketPrefix refName)).filter
          (fun entry => entry.key ≠ lockKey bucketPrefix refName) =
        [] :=
    empty
  unfold deleteBranchUnderLock
  rw [run_bind_ok (run_list_troubled _ _ _),
    issued_bind_ok (run_list_troubled _ _ _)]
  simp only [listed, List.isEmpty_nil, if_true]
  refine ⟨rfl, ?_⟩
  simp [issued_mapError, Store.list, issued, Call.deleted?]

/-- A sweep that finds nothing. -/
theorem account_empty
    {world : World}
    (unmarked :
      entriesHaveProtectedMarker
          (world.listing (refListingPrefix bucketPrefix refName)) =
        false)
    (empty : deletable bucketPrefix refName world = []) :
    SweepAccount bucketPrefix refName failures world (.ok .alreadyGone) []
      world := by
  have absent
      {key : Text}
      (branch : BranchKey bucketPrefix refName key) :
      ¬ (world.get? key).isSome := by
    intro present
    have member := mem_map_deletable.2 ⟨branch, present⟩
    rw [empty] at member
    cases member
  constructor
  case once => exact List.nodup_nil
  case attempted =>
      intro key
      simp only [List.not_mem_nil, false_iff]
      rintro ⟨branch, present, -⟩
      exact absent branch present
  case succeeds =>
      exact
        ⟨fun _ _ member => (List.not_mem_nil member).elim,
          fun _ => ⟨_, rfl⟩⟩
  case reported => exact Or.inl ⟨_, rfl⟩
  case finished =>
      intro result _ key under present
      rw [releaseLock, run_deleteIdempotent] at present
      by_cases lock : key = lockKey bucketPrefix refName
      · rw [lock, World.get?_remove_self] at present
        cases present
      · rw [World.get?_remove_ne _ _ lock] at present
        exact absurd present (absent ⟨under, lock⟩)
  case tombstoned =>
      intro key deferred
      rcases deferred.branchKey with ⟨branch, present⟩
      exact absurd present (absent branch)
  case retried =>
      intro later ttl resumes free key under present
      exact
        deferred_of_retry unmarked (fun _ _ stored => stored) resumes free
          under present

/-- A sweep leaves the tombstone of what it defers. -/
theorem tombstoned_deferring
    {world : World}
    {key : Text}
    (trying : List ObjectMeta)
    (deferred : DeferredBundle bucketPrefix refName world key)
    (listed : ∀ entry ∈ trying,
      refListingPrefix bucketPrefix refName <+: entry.key) :
    ∃ runId,
      ((trying.foldl (tried failures)
          (deferring bucketPrefix refName
            (deletable bucketPrefix refName world) world)).body?
          (baselineTombstoneKey (prefixText bucketPrefix) runId)).bind
          (tombstonedKey bucketPrefix) =
        some key := by
  rcases Option.map_eq_some_iff.1 (deferredBaseline_eq_some.2 deferred) with
    ⟨sha, baseline, rfl⟩
  refine ⟨Platform.uuid world.drawn, ?_⟩
  have outside :
      baselineTombstoneKey (prefixText bucketPrefix)
          (Platform.uuid world.drawn) ∉
        trying.map ObjectMeta.key := by
    intro member
    rcases List.mem_map.1 member with ⟨entry, inside, same⟩
    have under := listed entry inside
    rw [same, baselineTombstoneKey_eq, refListingPrefix_prefix_iff]
      at under
    exact under
  unfold World.body?
  rw [get?_tried, if_neg fun gone => outside gone.1, deferring, baseline]
  simp only
  rw [World.tombstone, baselineTombstoneKey_eq, World.get?_put_self,
    Option.map_some, Option.bind_some, tombstonedKey_eq_some]
  exact ⟨_, refName, rfl, rfl, rfl, rfl⟩

/-- A sweep that finds something. -/
theorem account_swept
    {world : World}
    (unmarked :
      entriesHaveProtectedMarker
          (world.listing (refListingPrefix bucketPrefix refName)) =
        false) :
    let trying := sweepable bucketPrefix refName world
    SweepAccount bucketPrefix refName failures world
      (if failingKeys failures trying = [] then .ok (.deleted trying.length)
        else
          .error
            (.partialDelete (failingKeys failures trying) trying.length))
      (trying.map ObjectMeta.key)
      (trying.foldl (tried failures)
        (deferring bucketPrefix refName
          (deletable bucketPrefix refName world) world)) := by
  intro trying
  have fine :
      failingKeys failures trying = [] ↔
        ∀ key ∈ trying.map ObjectMeta.key, failures key = none := by
    rw [List.eq_nil_iff_forall_not_mem]
    constructor
    · intro none_ key member
      by_contra failing
      exact
        none_ key
          (mem_failingKeys.2 ⟨member, Option.isSome_iff_ne_none.2 failing⟩)
    · intro spared key member
      rcases mem_failingKeys.1 member with ⟨inside, failing⟩
      rw [spared key inside] at failing
      cases failing
  have left
      {key : Text}
      (under : refListingPrefix bucketPrefix refName <+: key)
      (present :
        ((trying.foldl (tried failures)
          (deferring bucketPrefix refName
            (deletable bucketPrefix refName world) world)).get?
          key).isSome) :
      (world.get? key).isSome ∧
        (key ∈ trying.map ObjectMeta.key → (failures key).isSome) := by
    rw [get?_tried, get?_deferring under] at present
    split at present
    · cases present
    next survives =>
        refine ⟨present, fun member => ?_⟩
        by_contra spared
        apply survives
        rw [Option.not_isSome_iff_eq_none.1 spared]
        exact ⟨member, rfl⟩
  constructor
  case once => exact nodup_sweepable refName world
  case attempted => exact fun key => mem_map_sweepable
  case succeeds =>
      rw [← fine]
      split
      next none_ => exact ⟨fun _ => none_, fun _ => ⟨_, rfl⟩⟩
      next some_ =>
          refine ⟨?_, fun none_ => absurd none_ some_⟩
          rintro ⟨result, same⟩
          cases same
  case reported =>
      split
      next => exact Or.inl ⟨_, rfl⟩
      next =>
          refine Or.inr ⟨failingKeys failures trying, ?_, ?_, ?_⟩
          · rw [List.length_map]
          · exact (nodup_sweepable refName world).filter _
          · exact fun key => mem_failingKeys
  case finished =>
      intro result succeeded key under present
      have spared : failingKeys failures trying = [] := by
        by_contra some_
        rw [if_neg some_] at succeeded
        cases succeeded
      rw [releaseLock, run_deleteIdempotent] at present
      by_cases lock : key = lockKey bucketPrefix refName
      · rw [lock, World.get?_remove_self] at present
        cases present
      · rw [World.get?_remove_ne _ _ lock] at present
        rcases left under present with ⟨stored, failing⟩
        by_contra undeferred
        have member : key ∈ trying.map ObjectMeta.key :=
          mem_map_sweepable.2 ⟨⟨under, lock⟩, stored, undeferred⟩
        have fails := failing member
        rw [fine.1 spared key member] at fails
        cases fails
  case tombstoned =>
      intro key deferred
      apply tombstoned_deferring trying deferred
      intro entry member
      have inside := List.mem_map_of_mem (f := ObjectMeta.key) member
      exact (mem_map_sweepable.1 inside).1.1
  case retried =>
      intro later ttl resumes free key under present
      exact
        deferred_of_retry unmarked (fun _ below stored => (left below stored).1)
          resumes free under present

/--
A sweep whose deletions fail for any set of keys tries every listed key once,
but for the lock and a deferred baseline, reports exactly those that failed,
and succeeds only when nothing else is left; a later run removes the rest.
-/
theorem deleteBranchUnderLock_accounts
    {bucketPrefix : Option Text}
    {refName : RefName}
    {world : World}
    (unmarked :
      entriesHaveProtectedMarker
          (world.listing (refListingPrefix bucketPrefix refName)) =
        false)
    (failures : Text → Option DeleteFailure)
    (count : Nat) :
    SweepAccount bucketPrefix refName failures world
      (run (troubled failures) (deleteBranchUnderLock bucketPrefix refName)
        (world, count)).1
      ((issued (troubled failures)
        (deleteBranchUnderLock bucketPrefix refName)
        (world, count)).filterMap Call.deleted?)
      (run (troubled failures) (deleteBranchUnderLock bucketPrefix refName)
        (world, count)).2.1 := by
  by_cases empty : deletable bucketPrefix refName world = []
  · rcases
      @run_deleteBranchUnderLock_empty _ bucketPrefix refName failures world
        empty count with
      ⟨ran, issues⟩
    rw [ran, issues]
    exact account_empty unmarked empty
  · rcases
      @run_deleteBranchUnderLock_troubled _ bucketPrefix refName failures
        world ⟨empty, unmarked_deletable unmarked⟩ count with
      ⟨sweptAt, ran, issues⟩
    rw [ran, issues]
    exact account_swept unmarked

end Account

section Schedules

attribute [local instance] Platform.simple

/-- A branch with a chain, its baseline and a bundle beside it. -/
def chainedBranch : World :=
  (((World.empty 0).put (bundleKey none .main (digitSha 'a' hex_a))
    (.file [1])).put (bundleKey none .main (digitSha 'b' hex_b))
    (.file [2])).put (chainKey none .main)
    (.chain
      ⟨ChainManifest.schemaVersion, digitSha 'a' hex_a, digitSha 'a' hex_a, []⟩)

/-- The deletion of the chain fails. -/
def stuckChain (key : Text) : Option DeleteFailure :=
  if key = chainKey none .main then
    some ⟨⟨.network, false⟩, fun _ same => by cases same⟩
  else none

theorem deleteBranchUnderLock_accounts_chainedBranch :
    SweepAccount none .main stuckChain chainedBranch
      (run (troubled stuckChain) (deleteBranchUnderLock none .main)
        (chainedBranch, 0)).1
      ((issued (troubled stuckChain) (deleteBranchUnderLock none .main)
        (chainedBranch, 0)).filterMap Call.deleted?)
      (run (troubled stuckChain) (deleteBranchUnderLock none .main)
        (chainedBranch, 0)).2.1 :=
  deleteBranchUnderLock_accounts (by decide +kernel) stuckChain 0

end Schedules

end GitRemoteObjectStore
