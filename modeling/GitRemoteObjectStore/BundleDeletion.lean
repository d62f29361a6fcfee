import GitRemoteObjectStore.BundleListing

/-!
# Deleting a reference of the bundle engine

`:<ref>` counts the bundles under the reference on its own: it does not
leave out the hidden ones, and it sees those of references nested below.  It
deletes what `list` shows exactly when that count is one and no protection
marker is found.
-/

namespace GitRemoteObjectStore.Bundle

open CallProgram Prog Separated

section Deletion

variable [Platform] {bucketPrefix : Option Text}

/-- The bucket after the deletion of some listed objects. -/
def swept (entries : List ObjectMeta) (world : World) : World :=
  entries.foldl (fun world entry => world.remove entry.key) world

omit [Platform] in
theorem get?_swept
    (entries : List ObjectMeta)
    (world : World)
    (key : Text) :
    (swept entries world).get? key =
      if key ∈ entries.map ObjectMeta.key then none
      else world.get? key := by
  unfold swept
  induction entries generalizing world with
  | nil => simp
  | cons entry rest hypothesis =>
      rw [List.foldl_cons, hypothesis, World.get?_remove]
      by_cases same : key = entry.key
      · simp [same]
      · simp [same]

/-- The objects a deletion removes. -/
def deletable
    (bucketPrefix : Option Text)
    (refName : RefName)
    (world : World) : List ObjectMeta :=
  (world.listing (refListingPrefix bucketPrefix refName)).filter
    fun entry => entry.key ≠ lockKey bucketPrefix refName

/-- The bundles under a reference, hidden or not. -/
def storedBundles
    (bucketPrefix : Option Text)
    (refName : RefName)
    (world : World) : List ObjectMeta :=
  (world.listing (refListingPrefix bucketPrefix refName)).filter
    fun entry => isBundleCandidate entry.key

/-- What a deletion asks for before it sweeps. -/
def Deletes
    (bucketPrefix : Option Text)
    (refName : RefName)
    (world : World) : Prop :=
  entriesHaveProtectedMarker
      (world.listing (refListingPrefix bucketPrefix refName)) = false ∧
    (storedBundles bucketPrefix refName world).length = 1

theorem isBundleCandidate_lockKey (refName : RefName) :
    isBundleCandidate (lockKey bucketPrefix refName) = false := by
  rw [lockKey_eq, isBundleCandidate_slot]
  rfl

/-- The lock object is not counted among the bundles. -/
theorem deletable_bundles (refName : RefName) (world : World) :
    (deletable bucketPrefix refName world).filter
        (fun entry => isBundleCandidate entry.key) =
      storedBundles bucketPrefix refName world := by
  unfold deletable storedBundles
  rw [List.filter_filter]
  apply List.filter_congr
  intro entry _
  by_cases same : entry.key = lockKey bucketPrefix refName
  · rw [same, isBundleCandidate_lockKey]
    rfl
  · have kept :
        decide (entry.key ≠ lockKey bucketPrefix refName) = true :=
      decide_eq_true same
    rw [kept, Bool.and_true]

/-- One bundle and no marker: everything but the lock is removed. -/
theorem run_deleteRemoteRefUnderLock
    {refName : RefName}
    {world : World}
    (deletes : Deletes bucketPrefix refName world) :
    run answer (deleteRemoteRefUnderLock bucketPrefix refName) world =
      (.ok (.ok refName),
        swept (deletable bucketPrefix refName world) world) := by
  rcases deletes with ⟨unmarked, single⟩
  rw [← deletable_bundles] at single
  have sweeping :
      run answer
          (forEach (fun entry => deleteIdempotent entry.key)
            (deletable bucketPrefix refName world))
          world =
        (.ok (), swept (deletable bucketPrefix refName world) world) :=
    run_forEach_effect
      (fun entry state => run_deleteIdempotent state entry.key) _ _
  unfold deletable at single sweeping
  unfold deleteRemoteRefUnderLock
  simp only [run_bind, run_mapError, Store.run_list, Except.mapError,
    unmarked, Bool.false_eq_true, if_false, single, sweeping,
    run_verifyNoOrphanProtectedAfterDelete]
  rfl

/-- Otherwise the deletion reports an error. -/
theorem run_deleteRemoteRefUnderLock_refused
    {refName : RefName}
    {world : World}
    (refused : ¬ Deletes bucketPrefix refName world) :
    ∃ message,
      run answer (deleteRemoteRefUnderLock bucketPrefix refName) world =
        (.ok (.error refName message), world) := by
  unfold deleteRemoteRefUnderLock
  simp only [run_bind, run_mapError, Store.run_list, Except.mapError]
  cases marked :
      entriesHaveProtectedMarker
        (world.listing (refListingPrefix bucketPrefix refName)) with
  | true => exact ⟨_, rfl⟩
  | false =>
      simp only [Bool.false_eq_true, if_false]
      have several :
          ((deletable bucketPrefix refName world).filter
            fun entry => isBundleCandidate entry.key).length ≠ 1 := by
        intro single
        rw [deletable_bundles] at single
        exact refused ⟨marked, single⟩
      unfold deletable at several
      split
      · exact ⟨_, rfl⟩
      next single => exact absurd single several
      · exact ⟨_, rfl⟩

/-! ## Under the lock -/

/-- A key ends in the protection marker. -/
def isMarkerKey (key : Text) : Bool :=
  match rsplitOnce '/' key with
  | none => false
  | some (_, last) => last == lit "PROTECTED#"

omit [Platform] in
theorem entriesHaveProtectedMarker_eq (entries : List ObjectMeta) :
    entriesHaveProtectedMarker entries =
      !(entries.filter fun entry => isMarkerKey entry.key).isEmpty := by
  unfold entriesHaveProtectedMarker
  induction entries with
  | nil => rfl
  | cons entry rest hypothesis =>
      rw [List.any_cons, hypothesis, List.filter_cons]
      change (isMarkerKey entry.key || _) = _
      cases isMarkerKey entry.key <;> rfl

theorem isMarkerKey_lockKey (refName : RefName) :
    isMarkerKey (lockKey bucketPrefix refName) = false := by
  rw [isMarkerKey, lockKey_eq, rsplitOnce_ref_key]
  simp [Entry.name, lit_eq]

/-- Taking the lock changes nothing a deletion asks for. -/
theorem deletes_locked_iff (refName : RefName) (world : World) :
    Deletes bucketPrefix refName
        (world.locked (lockKey bucketPrefix refName)) ↔
      Deletes bucketPrefix refName world := by
  unfold Deletes storedBundles World.locked
  rw [entriesHaveProtectedMarker_eq, entriesHaveProtectedMarker_eq,
    filter_listing_put (isMarkerKey_lockKey refName),
    filter_listing_remove (isMarkerKey_lockKey refName),
    filter_listing_put (isBundleCandidate_lockKey refName),
    filter_listing_remove (isBundleCandidate_lockKey refName)]

/-- After the sweep no bundle of the reference is left. -/
theorem bundle_swept
    (refName : RefName)
    (world : World)
    (sha : Sha40) :
    (swept (deletable bucketPrefix refName world) world).get?
        (bundleKey bucketPrefix refName sha) = none := by
  rw [get?_swept]
  split
  · rfl
  next kept =>
      by_contra present
      apply kept
      have listed :
          ∃ entry ∈
              world.listing (refListingPrefix bucketPrefix refName),
            entry.key = bundleKey bucketPrefix refName sha := by
        apply World.exists_mem_listing.2
        constructor
        · rw [bundleKey_eq, refListingPrefix_prefix_iff]
          exact Or.inl rfl
        · exact Option.isSome_iff_ne_none.2 present
      rcases listed with ⟨entry, member, key⟩
      apply List.mem_map.2
      refine ⟨entry, List.mem_filter.2 ⟨member, ?_⟩, key⟩
      rw [key, bundleKey_eq, lockKey_eq]
      simp

/--
Of an unlocked reference `:<ref>` reports success and leaves nothing listed
if and only if exactly one stored bundle, hidden or not, and no protection
marker is found under the reference.
-/
theorem deletion_ok_iff
    {world : World}
    {refName : RefName}
    {repo : LocalRepo}
    {zip force : Bool}
    {ttl now : Int}
    (unlocked : world.get? (lockKey bucketPrefix refName) = none) :
    ((run answer
          (pushOne bucketPrefix repo zip ttl now ⟨force, [], refName⟩)
          world).1 = .ok (.ok refName) ∧
        Lists bucketPrefix
          (run answer
            (pushOne bucketPrefix repo zip ttl now ⟨force, [], refName⟩)
            world).2
          refName []) ↔
      Deletes bucketPrefix refName world := by
  have free :
      world.lockFree ttl now (lockKey bucketPrefix refName) = true := by
    rw [World.lockFree, unlocked]
  have ran :
      run answer
          (pushOne bucketPrefix repo zip ttl now ⟨force, [], refName⟩)
          world =
        run answer
          (underRefLock bucketPrefix refName ttl now
            "pushing or deleting"
            (deleteRemoteRefUnderLock bucketPrefix refName))
          world :=
    rfl
  rw [ran, run_underRefLock _ _ _ free, lists_iff]
  constructor
  · rintro ⟨reported, -⟩
    by_contra refused
    rcases
        run_deleteRemoteRefUnderLock_refused
          (mt (deletes_locked_iff refName world).1 refused) with
      ⟨message, failed⟩
    rw [failed] at reported
    cases reported
  · intro deletes
    rw [run_deleteRemoteRefUnderLock
      ((deletes_locked_iff refName world).2 deletes)]
    refine ⟨rfl, linesOf_eq_nil_iff.2 ?_⟩
    intro sha _ visible
    have present := visible.1
    rw [World.slot?, ← bundleKey_eq, World.body?, World.get?_remove]
      at present
    split at present
    · cases present
    · rw [bundle_swept] at present
      cases present

end Deletion

/-! ## Two buckets -/

section Buckets

attribute [local instance] Platform.simple

/-- The bucket after one push to `refs/heads/main`. -/
def pushedWorld : World :=
  (run answer
    (pushOne none .linear false 60 0 ⟨false, ['a'], .main⟩)
    (.empty 0)).2

/-- The bucket after a forced push has superseded that one. -/
def forcedWorld : World :=
  (run answer
    (pushOne none .linear false 60 0 ⟨true, ['b'], .main⟩)
    pushedWorld).2

instance (world : World) (refName : RefName) :
    Decidable (Deletes none refName world) :=
  inferInstanceAs (Decidable (_ ∧ _))

/-- After a forced push, what `list` shows cannot be deleted. -/
theorem not_deletion_ok :
    Lists none forcedWorld .main
        [⟨digitSha 'b' hex_b, RefName.main.text⟩] ∧
      forcedWorld.get? (protectedMarkerKey none .main) = none ∧
      forcedWorld.get? (lockKey none .main) = none ∧
      ¬ ((run answer
            (pushOne none .linear false 60 0 ⟨false, [], .main⟩)
            forcedWorld).1 = .ok (.ok .main) ∧
          Lists none
            (run answer
              (pushOne none .linear false 60 0 ⟨false, [], .main⟩)
              forcedWorld).2
            .main []) := by
  refine ⟨lists_iff.2 ?_, ?_, ?_, ?_⟩
  · decide +kernel
  · decide +kernel
  · decide +kernel
  · rintro ⟨reported, -⟩
    revert reported
    decide +kernel

theorem deletion_ok_iff_pushed :
    ((run answer
          (pushOne none .linear false 60 0 ⟨false, [], .main⟩)
          pushedWorld).1 = .ok (.ok .main) ∧
        Lists none
          (run answer
            (pushOne none .linear false 60 0 ⟨false, [], .main⟩)
            pushedWorld).2
          .main []) ∧
      Deletes none .main pushedWorld := by
  have unlocked : pushedWorld.get? (lockKey none .main) = none := by
    decide +kernel
  have deletes : Deletes none .main pushedWorld := by
    decide +kernel
  exact ⟨(deletion_ok_iff unlocked).2 deletes, deletes⟩

end Buckets

end GitRemoteObjectStore.Bundle
