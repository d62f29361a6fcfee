import GitRemoteObjectStore.PackchainSections
import GitRemoteObjectStore.SweepEffects
import GitRemoteObjectStore.Library.Machine

/-!
# What list shows after a history

One client after another pushes to a reference of the bundle engine, deletes
it or collects garbage.  The commit pushed last is what `list` shows, unless
a baseline tombstone named its bundle before the push: the push then uploads
a bundle that stays hidden.
-/

namespace GitRemoteObjectStore.BundleHistories

open CallProgram Prog GitRemoteObjectStore.Bundle SweepEffects

/-! ## The steps of a history -/

section Histories

variable [Platform]

/-- A command on the reference, a run of the collector, or time passing. -/
inductive Command where
  | push
      (repo : LocalRepo)
      (zip force : Bool)
      (localSpec : Text)
      (ttl now : Int)
  | deleteBranch (confirmed : Bool) (ttl : Int)
  | mark (completion : Arrivals.Completion) (dryRun : Bool)
  | sweep (scans : Scans) (opts : SweepOpts)
  | wait (duration : Int)

omit [Platform] in
/-- The commands that are not about the reference. -/
def Command.Collects : Command → Prop
  | .push .. => False
  | .deleteBranch .. => False
  | .mark .. => True
  | .sweep .. => True
  | .wait _ => True

/-- Whether an operation has succeeded, and what it leaves. -/
def report
    {ε α : Type}
    (accepts : α → Bool) : Except ε α × World → Bool × World
  | (.ok value, next) => (accepts value, next)
  | (.error _, next) => (false, next)

/-- A command on a bucket; a push of nothing deletes the reference. -/
def perform
    (bucketPrefix : Option Text)
    (refName : RefName)
    (world : World) : Command → Bool × World
  | .push repo zip force localSpec ttl now =>
      report
        (fun
          | .ok _ => true
          | .error _ _ => false)
        (run answer
          (pushOne bucketPrefix repo zip ttl now
            ⟨force, localSpec, refName⟩)
          world)
  | .deleteBranch confirmed ttl =>
      report
        (fun
          | .deleted _ => true
          | _ => false)
        (run answer (deleteBranch bucketPrefix refName confirmed ttl)
          world)
  | .mark completion dryRun =>
      report (fun _ => true)
        (run answer (mark completion (prefixText bucketPrefix) dryRun)
          world)
  | .sweep scans opts =>
      report (fun _ => true)
        (run answer (sweep scans (prefixText bucketPrefix) opts) world)
  | .wait duration => (true, world.wait duration)

/-- A command that succeeds. -/
def step?
    (bucketPrefix : Option Text)
    (refName : RefName) : Machine World Command :=
  fun world command =>
    if (perform bucketPrefix refName world command).1 then
      some (perform bucketPrefix refName world command).2
    else none

omit [Platform] in
@[simp]
theorem report_snd
    {ε α : Type}
    (accepts : α → Bool)
    (result : Except ε α × World) :
    (report accepts result).2 = result.2 := by
  rcases result with ⟨value | error, next⟩ <;> rfl

omit [Platform] in
theorem report_fst_iff
    {ε α : Type}
    {accepts : α → Bool}
    {result : Except ε α × World} :
    (report accepts result).1 = true ↔
      ∃ value, result.1 = .ok value ∧ accepts value = true := by
  rcases result with ⟨error | value, next⟩
  · simp [report]
  · simp [report]

theorem step?_eq_some
    {bucketPrefix : Option Text}
    {refName : RefName}
    {world next : World}
    {command : Command} :
    step? bucketPrefix refName world command = some next ↔
      (perform bucketPrefix refName world command).1 = true ∧
        (perform bucketPrefix refName world command).2 = next := by
  unfold step?
  split
  next done => simp [done]
  next failed => simp [failed]

/-! ## What every step keeps -/

/-- A bucket whose only reference at this place is one without a chain. -/
structure Own
    (bucketPrefix : Option Text)
    (refName : RefName)
    (world : World) : Prop where
  sound : world.Sound bucketPrefix
  alone :
    ∀ other entry,
      (world.slot? bucketPrefix (.ref other entry)).isSome →
        (Slot.ref other entry).Under refName → other = refName
  chainless : world.slot? bucketPrefix (.ref refName .chain) = none

section Keeping

variable
    {bucketPrefix : Option Text}
    {refName : RefName}
    {world next : World}

theorem own_empty (clock : Int) :
    Own bucketPrefix refName (.empty clock) where
  sound := World.sound_empty clock
  alone := by
    intro other entry present
    simp [World.slot?] at present
  chainless := by simp [World.slot?]

/-- A new object of the reference itself, or of no reference. -/
theorem Own.put
    {slot : Slot}
    {body : Body}
    (own : Own bucketPrefix refName world)
    (accepts : slot.Accepts body)
    (aside : ∀ runId, slot ≠ .baselineTombstone runId)
    (chain : slot ≠ .ref refName .chain)
    (place :
      ∀ other entry, slot = .ref other entry → other = refName) :
    Own bucketPrefix refName (world.put (slot.key bucketPrefix) body) where
  sound := own.sound.put accepts aside
  alone := by
    intro other entry present under
    rw [slot?_put] at present
    split at present
    next same => exact place other entry same.symm
    next => exact own.alone other entry present under
  chainless := by
    rw [slot?_put, if_neg chain.symm]
    exact own.chainless

theorem Own.remove
    (own : Own bucketPrefix refName world)
    (key : Text) :
    Own bucketPrefix refName (world.remove key) where
  sound := own.sound.remove key
  alone := by
    intro other entry present
    unfold World.slot? at present
    rw [World.body?_remove] at present
    split at present
    · cases present
    · exact own.alone other entry present
  chainless := by
    have chainless := own.chainless
    unfold World.slot? at chainless ⊢
    rw [World.body?_remove]
    split
    · rfl
    · exact chainless

theorem Own.tombstone
    (own : Own bucketPrefix refName world)
    (sha : Sha40) :
    Own bucketPrefix refName
      (world.tombstone bucketPrefix refName sha) where
  sound := own.sound.tombstone refName sha
  alone := by
    intro other entry present
    rw [slot?_tombstone (by simp)] at present
    exact own.alone other entry present
  chainless := by
    rw [slot?_tombstone (by simp)]
    exact own.chainless

theorem Own.collected
    (own : Own bucketPrefix refName world)
    (collected : Collected bucketPrefix world next) :
    Own bucketPrefix refName next where
  sound := collected.sound own.sound
  alone := fun other entry present =>
    own.alone other entry (collected.slot? present)
  chainless := by
    rw [← Option.not_isSome_iff_eq_none]
    intro present
    have before := collected.slot? present
    rw [own.chainless] at before
    cases before

/-! ## One push -/

/-- The bundles of the reference that are stored, and those hidden. -/
structure Bundled
    (bucketPrefix : Option Text)
    (refName : RefName)
    (world : World)
    (stored hidden : Sha40 → Prop) : Prop where
  own : Own bucketPrefix refName world
  present :
    ∀ sha,
      (world.slot? bucketPrefix (.ref refName (.bundle sha))).isSome ↔
        stored sha
  tombstoned :
    ∀ sha, world.Tombstoned bucketPrefix refName sha ↔ hidden sha

/-- What the bucket has. -/
theorem Own.bundled (own : Own bucketPrefix refName world) :
    Bundled bucketPrefix refName world
      (fun sha =>
        (world.slot? bucketPrefix (.ref refName (.bundle sha))).isSome)
      (world.Tombstoned bucketPrefix refName) :=
  ⟨own, fun _ => Iff.rfl, fun _ => Iff.rfl⟩

section Bundled

variable {stored hidden : Sha40 → Prop}

theorem Bundled.same
    (bundled : Bundled bucketPrefix refName world stored hidden)
    (own : Own bucketPrefix refName next)
    (same : World.SameBundles bucketPrefix world next) :
    Bundled bucketPrefix refName next stored hidden where
  own := own
  present := fun sha =>
    (same refName sha).1.trans (bundled.present sha)
  tombstoned := fun sha =>
    (same refName sha).2.trans (bundled.tombstoned sha)

/-- An object that is neither a bundle nor a tombstone nor a chain. -/
theorem Bundled.put
    {slot : Slot}
    {body : Body}
    (bundled : Bundled bucketPrefix refName world stored hidden)
    (accepts : slot.Accepts body)
    (ordinary : slot.Ordinary)
    (chain : slot ≠ .ref refName .chain)
    (place : ∀ other entry, slot = .ref other entry → other = refName) :
    Bundled bucketPrefix refName
      (world.put (slot.key bucketPrefix) body) stored hidden :=
  bundled.same
    (bundled.own.put accepts ordinary.ne_baselineTombstone chain place)
    (bundled.own.sound.sameBundles_put accepts ordinary)

theorem Bundled.putIfAbsent
    {slot : Slot}
    {body : Body}
    (bundled : Bundled bucketPrefix refName world stored hidden)
    (accepts : slot.Accepts body)
    (ordinary : slot.Ordinary)
    (chain : slot ≠ .ref refName .chain)
    (place : ∀ other entry, slot = .ref other entry → other = refName) :
    Bundled bucketPrefix refName
      (world.putIfAbsent (slot.key bucketPrefix) body) stored hidden := by
  unfold World.putIfAbsent
  split
  · exact bundled
  · exact bundled.put accepts ordinary chain place

theorem Bundled.remove
    {slot : Slot}
    (bundled : Bundled bucketPrefix refName world stored hidden)
    (ordinary : slot.Ordinary) :
    Bundled bucketPrefix refName
      (world.remove (slot.key bucketPrefix)) stored hidden :=
  bundled.same (bundled.own.remove _)
    (bundled.own.sound.sameBundles_remove ordinary)

theorem Bundled.locked
    (bundled : Bundled bucketPrefix refName world stored hidden) :
    Bundled bucketPrefix refName
      (world.locked (lockKey bucketPrefix refName)) stored hidden := by
  rw [World.locked, lockKey_eq]
  refine (bundled.remove ?_).put rfl ?_ ?_ ?_
  · trivial
  · trivial
  · simp
  · intro other entry same
    cases same
    rfl

theorem Bundled.unlocked
    (bundled : Bundled bucketPrefix refName world stored hidden) :
    Bundled bucketPrefix refName
      (world.remove (lockKey bucketPrefix refName)) stored hidden := by
  rw [lockKey_eq]
  exact bundled.remove trivial

theorem Bundled.upload
    (bundled : Bundled bucketPrefix refName world stored hidden)
    (sha : Sha40)
    (content : List UInt8) :
    Bundled bucketPrefix refName
      (world.put (bundleKey bucketPrefix refName sha) (.file content))
      (fun other => other = sha ∨ stored other) hidden := by
  have accepts :
      (Slot.ref refName (.bundle sha)).Accepts (.file content) :=
    ⟨content, rfl⟩
  rw [bundleKey_eq]
  refine ⟨bundled.own.put accepts (by simp) (by simp) ?_, ?_, ?_⟩
  · intro other entry same
    cases same
    rfl
  · intro other
    rw [slot?_put, ← bundled.present]
    by_cases same : other = sha
    · simp [same]
    · simp [same]
  · intro other
    rw [← bundled.tombstoned]
    exact
      bundled.own.sound.placed.tombstoned_put_iff accepts (by simp)

theorem Bundled.tombstone
    (bundled : Bundled bucketPrefix refName world stored hidden)
    (sha : Sha40) :
    Bundled bucketPrefix refName
      (world.tombstone bucketPrefix refName sha) stored
      (fun other => hidden other ∨ other = sha) where
  own := bundled.own.tombstone sha
  present := by
    intro other
    rw [slot?_tombstone (by simp)]
    exact bundled.present other
  tombstoned := by
    intro other
    rw [World.tombstoned_tombstone_iff bundled.own.sound.placed
      bundled.own.sound.idsDrawn, bundled.tombstoned]
    simp

end Bundled

/-- The bundle that a push supersedes is visible. -/
theorem exists_prior
    {key : Text}
    (own : Own bucketPrefix refName world)
    (prior : priorKey bucketPrefix refName world = some key) :
    ∃ sha,
      key = bundleKey bucketPrefix refName sha ∧
        world.Visible bucketPrefix refName sha := by
  rcases Option.map_eq_some_iff.1 prior with ⟨entry, first, rfl⟩
  have member := List.mem_of_mem_head? first
  simp only [visibleMetas, List.mem_filter, Bool.not_eq_true',
    List.contains_eq_mem, decide_eq_false_iff_not] at member
  rcases member with ⟨⟨listed, candidate⟩, shown⟩
  rcases World.mem_listing.1 listed with ⟨begins, object, found, -⟩
  have stored : world.body? entry.key = some object.body := by
    rw [World.body?, found, Option.map_some]
  rcases own.sound.placed entry.key object.body stored with
    ⟨slot, same, -⟩
  rw [same, isBundleCandidate_slot] at candidate
  cases slot with
  | ref other place =>
      cases place with
      | bundle sha =>
          rw [same, refListingPrefix_prefix_iff] at begins
          have present :
              (world.slot? bucketPrefix
                (.ref other (.bundle sha))).isSome := by
            rw [World.slot?, ← same, stored]
            rfl
          have own := own.alone other _ present begins
          subst own
          refine ⟨sha, same.trans (bundleKey_eq ..).symm, present, ?_⟩
          rwa [← bundleKey_mem_hiddenKeys, bundleKey_eq, ← same]
      | _ => cases candidate
  | _ => cases candidate

/-- A visible bundle is the one that a push supersedes. -/
theorem priorKey_of_visible
    {sha : Sha40}
    (single :
      (visibleMetas bucketPrefix refName
        (hiddenKeys bucketPrefix world) world).length ≤ 1)
    (visible : world.Visible bucketPrefix refName sha) :
    priorKey bucketPrefix refName world =
      some (bundleKey bucketPrefix refName sha) := by
  rcases mem_visibleMetas_of_visible visible with ⟨entry, member, key⟩
  unfold priorKey
  cases listed :
      visibleMetas bucketPrefix refName (hiddenKeys bucketPrefix world)
        world with
  | nil =>
      rw [listed] at member
      cases member
  | cons first rest =>
      rw [listed] at member single
      rw [List.length_cons] at single
      have alone : rest = [] := List.length_eq_zero_iff.1 (by omega)
      rw [alone, List.mem_singleton] at member
      rw [List.head?_cons, Option.map_some, ← member, key]

section Push

variable {stored hidden : Sha40 → Prop}

theorem Bundled.uploaded
    {state : PushReadyState}
    (bundled : Bundled bucketPrefix state.remoteRef world stored hidden) :
    Bundled bucketPrefix state.remoteRef
      (Bundle.uploaded bucketPrefix state world)
      (fun other => other = state.localSha ∨ stored other) hidden := by
  rw [Bundle.uploaded, headKey_eq, formatKey_eq]
  refine
    ((bundled.upload state.localSha state.bundle).putIfAbsent ?_ ?_ ?_
      ?_).putIfAbsent ?_ ?_ ?_ ?_
  · exact ⟨_, rfl⟩
  · trivial
  · simp
  · intro other entry same
    cases same
  · exact ⟨_, rfl⟩
  · trivial
  · simp
  · intro other entry same
    cases same

/-- The prior bundle is hidden, unless it is the one just uploaded. -/
theorem Bundled.superseded
    {state : PushReadyState}
    {prior : Option Text}
    (bundled : Bundled bucketPrefix state.remoteRef world stored hidden)
    (named :
      ∀ key ∈ prior,
        ∃ sha, key = bundleKey bucketPrefix state.remoteRef sha) :
    Bundled bucketPrefix state.remoteRef
      (Bundle.superseded bucketPrefix state prior world) stored
      (fun other =>
        hidden other ∨
          prior = some (bundleKey bucketPrefix state.remoteRef other) ∧
            other ≠ state.localSha) := by
  cases prior with
  | none => simpa [Bundle.superseded] using bundled
  | some key =>
      rcases named key rfl with ⟨sha, rfl⟩
      have keys (other : Sha40) :
          bundleKey bucketPrefix state.remoteRef sha =
              bundleKey bucketPrefix state.remoteRef other ↔
            sha = other := by
        simp [bundleKey_eq]
      by_cases same : sha = state.localSha
      · have unchanged :
            Bundle.superseded bucketPrefix state
              (some (bundleKey bucketPrefix state.remoteRef sha)) world =
              world := by
          rw [same]
          exact if_neg (not_not.2 rfl)
        rw [unchanged]
        refine ⟨bundled.own, bundled.present, ?_⟩
        intro other
        rw [bundled.tombstoned, Option.some.injEq, keys]
        refine (or_iff_left ?_).symm
        rintro ⟨rfl, different⟩
        exact different same
      · have deferred :
            Bundle.superseded bucketPrefix state
              (some (bundleKey bucketPrefix state.remoteRef sha)) world =
              world.tombstone bucketPrefix state.remoteRef sha := by
          have different :
              bundleKey bucketPrefix state.remoteRef sha ≠
                bundleKey bucketPrefix state.remoteRef state.localSha :=
            mt (keys _).1 same
          have parsed :
              parseRemoteShaFromKey
                  (bundleKey bucketPrefix state.remoteRef sha) =
                some sha := by
            rw [bundleKey_eq, parseRemoteShaFromKey_slot]
            rfl
          simp only [Bundle.superseded, different, ne_eq,
            not_false_eq_true, if_true, Bundle.deferred, parsed, same,
            if_false]
        rw [deferred]
        refine
          ⟨bundled.own.tombstone sha, (bundled.tombstone sha).present, ?_⟩
        intro other
        rw [(bundled.tombstone sha).tombstoned, Option.some.injEq, keys]
        refine or_congr_right ⟨?_, ?_⟩
        · rintro rfl
          exact ⟨rfl, same⟩
        · rintro ⟨rfl, -⟩
          rfl

theorem Bundled.archived
    {state : PushReadyState}
    (bundled : Bundled bucketPrefix state.remoteRef world stored hidden) :
    Bundled bucketPrefix state.remoteRef
      (Bundle.archived bucketPrefix state world) stored hidden := by
  unfold Bundle.archived
  cases state.zipArtifacts with
  | none => exact bundled
  | some archive =>
      rw [archiveKey_eq]
      refine bundled.put ⟨_, rfl⟩ ?_ ?_ ?_
      · trivial
      · simp
      · intro other entry same
        cases same
        rfl

end Push

/-- Whatever precedes it, only the bundle of the push can be visible. -/
theorem visible_pushed
    {repo : LocalRepo}
    {zip : Bool}
    {ttl now : Int}
    {spec : PushSpec}
    {found : LocalGit}
    {bundle : List UInt8}
    (own : Own bucketPrefix spec.remoteRef world)
    (succeeds :
      Succeeds bucketPrefix repo zip ttl now spec world found bundle) :
    let next :=
      pushed bucketPrefix (readyState bucketPrefix spec world found bundle)
        world
    Own bucketPrefix spec.remoteRef next ∧
      ∀ sha,
        next.Visible bucketPrefix spec.remoteRef sha ↔
          sha = found.localSha ∧
            ¬ world.Tombstoned bucketPrefix spec.remoteRef
              found.localSha := by
  intro next
  have named :
      ∀ key ∈ priorKey bucketPrefix spec.remoteRef world,
        ∃ sha, key = bundleKey bucketPrefix spec.remoteRef sha := by
    intro key prior
    rcases exists_prior own prior with ⟨sha, same, -⟩
    exact ⟨sha, same⟩
  have bundled :
      Bundled bucketPrefix spec.remoteRef next
        (fun other =>
          other = found.localSha ∨
            (world.slot? bucketPrefix
              (.ref spec.remoteRef (.bundle other))).isSome)
        (fun other =>
          world.Tombstoned bucketPrefix spec.remoteRef other ∨
            priorKey bucketPrefix spec.remoteRef world =
                some (bundleKey bucketPrefix spec.remoteRef other) ∧
              other ≠ found.localSha) := by
    let state := readyState bucketPrefix spec world found bundle
    have taken :
        Bundled bucketPrefix state.remoteRef
          (world.locked (lockKey bucketPrefix state.remoteRef)) _ _ :=
      own.bundled.locked
    exact (taken.uploaded.superseded named).archived.unlocked
  refine ⟨bundled.own, ?_⟩
  intro sha
  rw [World.Visible, bundled.present, bundled.tombstoned]
  constructor
  · rintro ⟨rfl | present, shown⟩
    · exact ⟨rfl, fun hidden => shown (Or.inl hidden)⟩
    · by_cases same : sha = found.localSha
      · subst same
        exact ⟨rfl, fun hidden => shown (Or.inl hidden)⟩
      · exfalso
        have visible :
            world.Visible bucketPrefix spec.remoteRef sha :=
          ⟨present, fun hidden => shown (Or.inl hidden)⟩
        exact
          shown
            (Or.inr
              ⟨priorKey_of_visible succeeds.prepared.single visible,
                same⟩)
  · rintro ⟨rfl, shown⟩
    refine ⟨Or.inl rfl, ?_⟩
    rintro (hidden | ⟨-, different⟩)
    · exact shown hidden
    · exact different rfl

/-! ## One command -/

theorem Own.deferring
    (own : Own bucketPrefix refName world)
    (entries : List ObjectMeta) :
    Own bucketPrefix refName
      (deferring bucketPrefix refName entries world) := by
  unfold GitRemoteObjectStore.deferring
  split
  · exact own.tombstone _
  · exact own

theorem Own.swept
    (own : Own bucketPrefix refName world)
    (entries : List ObjectMeta) :
    Own bucketPrefix refName (swept entries world) := by
  unfold Bundle.swept
  induction entries generalizing world with
  | nil => exact own
  | cons entry rest hypothesis => exact hypothesis (own.remove entry.key)

theorem Own.locked (own : Own bucketPrefix refName world) :
    Own bucketPrefix refName
      (world.locked (lockKey bucketPrefix refName)) :=
  own.bundled.locked.own

theorem Own.unlocked (own : Own bucketPrefix refName world) :
    Own bucketPrefix refName
      (world.remove (lockKey bucketPrefix refName)) :=
  own.bundled.unlocked.own

/-- A push of nothing removes objects under the lock, or does nothing. -/
theorem run_deletion_cases
    (refName : RefName)
    (repo : LocalRepo)
    (zip force : Bool)
    (ttl now : Int)
    (world : World) :
    (run answer
          (pushOne bucketPrefix repo zip ttl now ⟨force, [], refName⟩)
          world).2 = world ∨
      ∃ entries,
        (run answer
            (pushOne bucketPrefix repo zip ttl now ⟨force, [], refName⟩)
            world).2 =
          (swept entries
              (world.locked (lockKey bucketPrefix refName))).remove
            (lockKey bucketPrefix refName) := by
  have ran :
      run answer
          (pushOne bucketPrefix repo zip ttl now ⟨force, [], refName⟩)
          world =
        run answer
          (underRefLock bucketPrefix refName ttl now "pushing or deleting"
            (deleteRemoteRefUnderLock bucketPrefix refName))
          world :=
    rfl
  rw [ran]
  by_cases free :
      world.lockFree ttl now (lockKey bucketPrefix refName) = true
  · right
    rw [run_underRefLock _ _ _ free]
    by_cases deletes :
        Deletes bucketPrefix refName
          (world.locked (lockKey bucketPrefix refName))
    · rw [run_deleteRemoteRefUnderLock deletes]
      exact ⟨_, rfl⟩
    · rcases run_deleteRemoteRefUnderLock_refused deletes with
        ⟨message, failed⟩
      rw [failed]
      exact ⟨[], rfl⟩
  · left
    rw [run_underRefLock_contended _ _ _ (by simpa using free)]

theorem Own.run_pushOne
    (own : Own bucketPrefix refName world)
    (repo : LocalRepo)
    (zip force : Bool)
    (localSpec : Text)
    (ttl now : Int) :
    Own bucketPrefix refName
      (run answer
        (pushOne bucketPrefix repo zip ttl now
          ⟨force, localSpec, refName⟩)
        world).2 := by
  by_cases named : localSpec = []
  · subst named
    rcases
        run_deletion_cases refName repo zip force ttl now world with
      same | ⟨entries, same⟩
    · rw [same]
      exact own
    · rw [same]
      exact (own.locked.swept entries).unlocked
  · rcases
        succeeds_or_unchanged bucketPrefix repo zip ttl now
          ⟨force, localSpec, refName⟩ named world with
      ⟨found, bundle, succeeds⟩ | ⟨result, next, ran, -, rfl | rfl⟩
    · rw [succeeds.run]
      exact (visible_pushed own succeeds).1
    · rw [ran]
      exact own
    · rw [ran]
      exact own.locked.unlocked

theorem Own.run_deleteBranchUnderLock
    (own : Own bucketPrefix refName world) :
    Own bucketPrefix refName
      (run answer (deleteBranchUnderLock bucketPrefix refName)
        world).2 := by
  by_cases deletes : BranchDeletes bucketPrefix refName world
  · rcases GitRemoteObjectStore.run_deleteBranchUnderLock deletes with
      ⟨count, ran⟩
    rw [ran]
    exact (own.deferring _).swept _
  · rw [(run_deleteBranchUnderLock_refused deletes).2]
    exact own

/-- A branch deletion does nothing, or what its locked section does. -/
theorem run_deleteBranch_cases
    (refName : RefName)
    (confirmed : Bool)
    (ttl : Int)
    (world : World) :
    (run answer (deleteBranch bucketPrefix refName confirmed ttl)
          world).2 = world ∨
      run answer (deleteBranch bucketPrefix refName confirmed ttl) world =
        ((run answer (deleteBranchUnderLock bucketPrefix refName)
            (world.locked (lockKey bucketPrefix refName))).1,
          (run answer (deleteBranchUnderLock bucketPrefix refName)
              (world.locked (lockKey bucketPrefix refName))).2.remove
            (lockKey bucketPrefix refName)) := by
  unfold deleteBranch
  simp only [run_bind, run_mapError, Store.run_list, Except.mapError]
  split
  · exact Or.inl rfl
  simp only [run_bind, run_mapError, Store.run_list, Except.mapError]
  split
  · exact Or.inl rfl
  split
  · exact Or.inl rfl
  simp only [run_bind, run_nowUtc, run_mapError, Except.mapError]
  cases free :
      world.lockFree ttl world.clock (lockKey bucketPrefix refName) with
  | false =>
      left
      rw [run_holdingLock_contended world free]
      rfl
  | true =>
      right
      rw [run_holdingLock world free]
      cases
          (run answer (deleteBranchUnderLock bucketPrefix refName)
            (world.locked (lockKey bucketPrefix refName))).1 with
      | error error => rfl
      | ok result => rfl

theorem Own.run_deleteBranch
    (own : Own bucketPrefix refName world)
    (confirmed : Bool)
    (ttl : Int) :
    Own bucketPrefix refName
      (run answer (deleteBranch bucketPrefix refName confirmed ttl)
        world).2 := by
  rcases run_deleteBranch_cases refName confirmed ttl world with
    same | same
  · rw [same]
    exact own
  · rw [same]
    exact own.locked.run_deleteBranchUnderLock.unlocked

/-! ## The commands that collect -/

/-- The reference, and which of its bundles are visible. -/
structure Shows
    (bucketPrefix : Option Text)
    (refName : RefName)
    (world : World)
    (shown : Sha40 → Prop) : Prop where
  own : Own bucketPrefix refName world
  visible :
    ∀ sha, world.Visible bucketPrefix refName sha ↔ shown sha

section Shows

variable {shown : Sha40 → Prop}

/-- Without a chain, what a sweep removes is not visible. -/
theorem Shows.collected
    (shows : Shows bucketPrefix refName world shown)
    (collected : Collected bucketPrefix world next) :
    Shows bucketPrefix refName next shown where
  own := shows.own.collected collected
  visible := by
    intro sha
    rw [← shows.visible]
    constructor
    · rintro ⟨present, shown⟩
      refine ⟨collected.slot? present, ?_⟩
      intro hidden
      rcases
          collected.tombstones shows.own.sound.placed refName sha hidden
            shown with
        gone | ⟨chain, stored, -⟩
      · rw [gone] at present
        cases present
      · rw [collected.chains] at stored
        have chained := (World.chain?_eq_some_iff _ _).1 stored
        have chainless := shows.own.chainless
        rw [World.slot?, ← chainKey_eq, chained.1] at chainless
        cases chainless
    · rintro ⟨present, shown⟩
      refine ⟨?_, fun hidden => shown (collected.tombstoned hidden)⟩
      by_contra absent
      rw [Option.not_isSome_iff_eq_none] at absent
      exact shown (collected.bundles refName sha present absent).1

theorem Shows.run_mark
    (shows : Shows bucketPrefix refName world shown)
    (completion : Arrivals.Completion)
    (dryRun : Bool) :
    Shows bucketPrefix refName
      (run answer (mark completion (prefixText bucketPrefix) dryRun)
        world).2
      shown := by
  let allowed (request : Call) : Prop :=
    request.Reads ∨
      ∃ slot record,
        (∃ name, slot = Slot.tombstone name) ∧
          request = .put (slot.key bucketPrefix) (.tombstone record)
  have issues :
      Issues Call.Credible allowed
        (mark completion (prefixText bucketPrefix) dryRun) := by
    apply issues_mark fun request reads => Or.inl reads
    intro runId markedAt record
    rw [tombstoneKey_eq]
    exact Or.inr ⟨_, record, ⟨_, rfl⟩, rfl⟩
  have kept
      (request : Call)
      (state : World)
      (permitted : allowed request)
      (before : Shows bucketPrefix refName state shown) :
      Shows bucketPrefix refName (answer request state).2 shown := by
    rcases permitted with reads | ⟨slot, record, ⟨name, rfl⟩, rfl⟩
    · exact before.collected (collected_reads reads state)
    · have put :
          Bundled bucketPrefix refName
            (state.put ((Slot.tombstone name).key bucketPrefix)
              (.tombstone record)) _ _ :=
        before.own.bundled.put ⟨record, rfl⟩ trivial (by simp)
          (by simp)
      refine ⟨put.own, ?_⟩
      intro sha
      rw [← before.visible]
      exact and_congr (put.present sha) (not_congr (put.tombstoned sha))
  exact issues.run credible_answer kept shows

/-- Collecting changes nothing that is visible. -/
theorem Shows.perform
    (shows : Shows bucketPrefix refName world shown)
    (command : Command)
    (collects : command.Collects) :
    Shows bucketPrefix refName
      (perform bucketPrefix refName world command).2 shown := by
  cases command with
  | push repo zip force localSpec ttl now => exact collects.elim
  | deleteBranch confirmed ttl => exact collects.elim
  | mark completion dryRun =>
      rw [BundleHistories.perform, report_snd]
      exact shows.run_mark completion dryRun
  | sweep scans opts =>
      rw [BundleHistories.perform, report_snd]
      exact shows.collected (collected_sweep scans opts world)
  | wait duration =>
      exact
        ⟨⟨shows.own.sound.wait duration, shows.own.alone,
            shows.own.chainless⟩, shows.visible⟩

end Shows

/-! ## Histories -/

theorem Own.perform
    (own : Own bucketPrefix refName world)
    (command : Command) :
    Own bucketPrefix refName
      (perform bucketPrefix refName world command).2 := by
  have shows :
      Shows bucketPrefix refName world
        (world.Visible bucketPrefix refName) :=
    ⟨own, fun _ => Iff.rfl⟩
  cases command with
  | push repo zip force localSpec ttl now =>
      rw [BundleHistories.perform, report_snd]
      exact own.run_pushOne repo zip force localSpec ttl now
  | deleteBranch confirmed ttl =>
      rw [BundleHistories.perform, report_snd]
      exact own.run_deleteBranch confirmed ttl
  | mark completion dryRun =>
      exact (shows.perform (.mark completion dryRun) trivial).own
  | sweep scans opts =>
      exact (shows.perform (.sweep scans opts) trivial).own
  | wait duration =>
      exact (shows.perform (.wait duration) trivial).own

/-- Whatever its commands were, a bucket keeps to its reference. -/
theorem own_of_reaches
    (own : Own bucketPrefix refName world)
    {condition : World → Command → Prop}
    (reached : (step? bucketPrefix refName).Reaches condition world last) :
    Own bucketPrefix refName last := by
  refine Machine.Reaches.invariant own ?_ reached
  intro state command next own _ stepped
  rw [← (step?_eq_some.1 stepped).2]
  exact own.perform command

theorem Shows.reaches
    {shown : Sha40 → Prop}
    (shows : Shows bucketPrefix refName world shown)
    (reached :
      (step? bucketPrefix refName).Reaches
        (fun _ command => command.Collects) world last) :
    Shows bucketPrefix refName last shown := by
  induction reached with
  | refl => exact shows
  | step before collects stepped hypothesis =>
      rw [← (step?_eq_some.1 stepped).2]
      exact hypothesis.perform _ collects

/-- After a push only its own bundle can be visible. -/
theorem shows_pushed
    {repo : LocalRepo}
    {zip force : Bool}
    {localSpec : Text}
    {ttl now : Int}
    {sha : Sha40}
    (own : Own bucketPrefix refName world)
    (named : localSpec ≠ [])
    (resolved : repo.resolve localSpec = some sha)
    (stepped :
      step? bucketPrefix refName world
          (.push repo zip force localSpec ttl now) =
        some next) :
    Shows bucketPrefix refName next
      (fun other =>
        other = sha ∧ ¬ world.Tombstoned bucketPrefix refName sha) := by
  rcases step?_eq_some.1 stepped with ⟨done, rfl⟩
  rcases report_fst_iff.1 done with ⟨outcome, reported, accepted⟩
  have success :
      ∃ other, outcome = .ok other := by
    cases outcome with
    | ok other => exact ⟨other, rfl⟩
    | error other message => cases accepted
  rcases success with ⟨other, rfl⟩
  rcases succeeds_of_run named reported with ⟨found, bundle, succeeds⟩
  have same : found.localSha = sha := by
    have agree := succeeds.prepared.git.resolved.symm.trans resolved
    exact Option.some.inj agree
  rw [perform, report_snd, succeeds.run, ← same]
  rcases visible_pushed own succeeds with ⟨kept, visible⟩
  exact ⟨kept, visible⟩

/--
In every history of a reference, started on an empty bucket, whose last
command on the reference was a push of a commit, `list` shows that commit and
nothing else if and only if the reference can be listed and no baseline
tombstone named its bundle when it was pushed.
-/
theorem shown_iff
    {clock : Int}
    {repo : LocalRepo}
    {zip force : Bool}
    {localSpec : Text}
    {ttl now : Int}
    {sha : Sha40}
    (reached :
      (step? bucketPrefix refName).Reaches (fun _ _ => True)
        (.empty clock) world)
    (named : localSpec ≠ [])
    (resolved : repo.resolve localSpec = some sha)
    (stepped :
      step? bucketPrefix refName world
          (.push repo zip force localSpec ttl now) =
        some next)
    (collected :
      (step? bucketPrefix refName).Reaches
        (fun _ command => command.Collects) next last) :
    Lists bucketPrefix last refName [⟨sha, refName.text⟩] ↔
      refName.Listable ∧ ¬ world.Tombstoned bucketPrefix refName sha := by
  have own : Own bucketPrefix refName world :=
    own_of_reaches (own_empty clock) reached
  have shows :
      Shows bucketPrefix refName last
        (fun other =>
          other = sha ∧ ¬ world.Tombstoned bucketPrefix refName sha) :=
    (shows_pushed own named resolved stepped).reaches collected
  rw [lists_iff, linesOf_eq_singleton_iff]
  refine and_congr_right fun _ => ?_
  constructor
  · intro only
    exact ((shows.visible sha).1 ((only sha).2 rfl)).2
  · intro shown other
    rw [shows.visible]
    exact and_iff_left shown

end Keeping

end Histories

/-! ## Three pushes -/

section ThreePushes

attribute [local instance] Platform.simple

/-- A forced push to `refs/heads/main`. -/
def force (digit : Char) : Command :=
  .push .linear false true [digit] 60 0

/-- The bucket after the first push. -/
def firstWorld : World :=
  (perform none .main (.empty 0) (force 'a')).2

/-- The bucket after another commit has superseded it. -/
def secondWorld : World :=
  (perform none .main firstWorld (force 'b')).2

/-- The bucket after the first commit was pushed again. -/
def thirdWorld : World :=
  (perform none .main secondWorld (force 'a')).2

/-- Each of the three pushes runs. -/
theorem stepped_pushes :
    step? none .main (.empty 0) (force 'a') = some firstWorld ∧
      step? none .main firstWorld (force 'b') = some secondWorld ∧
      step? none .main secondWorld (force 'a') = some thirdWorld := by
  constructor
  · exact step?_eq_some.2 ⟨by decide +kernel, rfl⟩
  constructor
  · exact step?_eq_some.2 ⟨by decide +kernel, rfl⟩
  · exact step?_eq_some.2 ⟨by decide +kernel, rfl⟩

/-- A commit pushed again is not shown. -/
theorem not_shown :
    ¬ ∀ (bucketPrefix : Option Text) (refName : RefName) (clock : Int)
        (repo : LocalRepo) (zip force : Bool) (localSpec : Text)
        (ttl now : Int) (sha : Sha40) (world next last : World),
      (step? bucketPrefix refName).Reaches (fun _ _ => True)
          (.empty clock) world →
        localSpec ≠ [] →
          repo.resolve localSpec = some sha →
            step? bucketPrefix refName world
                (.push repo zip force localSpec ttl now) =
              some next →
            (step? bucketPrefix refName).Reaches
                (fun _ command => command.Collects) next last →
              Lists bucketPrefix last refName
                [⟨sha, refName.text⟩] := by
  intro claim
  have reached :
      (step? none .main).Reaches (fun _ _ => True) (.empty 0)
        secondWorld :=
    (Machine.Reaches.refl.step trivial stepped_pushes.1).step trivial
      stepped_pushes.2.1
  have shown :=
    claim none .main 0 .linear false true ['a'] 60 0
      (digitSha 'a' hex_a) secondWorld thirdWorld thirdWorld reached
      (by simp) (LocalRepo.resolve_linear hex_a) stepped_pushes.2.2 .refl
  rw [lists_iff] at shown
  have nothing : linesOf none thirdWorld .main = [] := by
    decide +kernel
  rw [nothing] at shown
  cases shown

/-- The second bucket a day after a mark. -/
def lateWorld : World :=
  (perform none .main secondWorld (.mark .reversed false)).2.wait
    (25 * hour)

/-- That bucket after a sweep. -/
def sweptWorld : World :=
  (perform none .main lateWorld (.sweep .reversed ⟨24, false⟩)).2

theorem collected_sweptWorld :
    (step? none .main).Reaches (fun _ command => command.Collects)
      secondWorld sweptWorld := by
  let marked :=
    (perform none .main secondWorld (.mark .reversed false)).2
  have marks :
      step? none .main secondWorld (.mark .reversed false) =
        some marked :=
    step?_eq_some.2 ⟨by decide +kernel, rfl⟩
  have waits :
      step? none .main marked (.wait (25 * hour)) = some lateWorld :=
    step?_eq_some.2 ⟨rfl, rfl⟩
  have sweeps :
      step? none .main lateWorld (.sweep .reversed ⟨24, false⟩) =
        some sweptWorld :=
    step?_eq_some.2 ⟨by decide +kernel, rfl⟩
  apply Machine.Reaches.step _ _ sweeps
  · apply Machine.Reaches.step _ _ waits
    · apply Machine.Reaches.step .refl _ marks
      trivial
    · trivial
  · trivial

/--
The commit that supersedes the first one is shown after a mark, a day and a
sweep that removes the bundle of the first.
-/
theorem shown_iff_second :
    sweptWorld.get? (bundleKey none .main (digitSha 'a' hex_a)) = none ∧
      Lists none sweptWorld .main
        [⟨digitSha 'b' hex_b, RefName.main.text⟩] := by
  have reached :
      (step? none .main).Reaches (fun _ _ => True) (.empty 0)
        firstWorld :=
    Machine.Reaches.refl.step trivial stepped_pushes.1
  constructor
  · decide +kernel
  · apply
      (shown_iff reached (by simp) (LocalRepo.resolve_linear hex_b)
        stepped_pushes.2.1 collected_sweptWorld).2
    constructor
    · decide +kernel
    · rw [← bundleKey_mem_hiddenKeys]
      decide +kernel

end ThreePushes

end GitRemoteObjectStore.BundleHistories
