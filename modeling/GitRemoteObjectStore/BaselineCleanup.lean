import GitRemoteObjectStore.Footprint
import GitRemoteObjectStore.ManifestUpdate

/-!
# The bundle of a superseded baseline

A forced push and a compaction leave the bundle of the baseline they replace
to the collector, by a tombstone.  A compaction names the baseline of the
chain it reads under the lock; a push names that of the chain its preparation
read.  Clients of one reference take turns at single calls, the locked
sections excluding each other.
-/

namespace GitRemoteObjectStore.BaselineCleanup

open CallProgram Prog Packchain

section Clients

variable
    [Platform]
    (bucketPrefix : Option Text)
    (refName : RefName)

/-- A bundle is gone, or a baseline tombstone names it. -/
def Accounted (world : World) (sha : Sha40) : Prop :=
  world.get? (bundleKey bucketPrefix refName sha) = none ∨
    world.Tombstoned bucketPrefix refName sha

/-! ## What a locked section relies on -/

/-- No tombstone comes or goes, and no bundle of the reference goes. -/
structure SameRecords (before after : World) : Prop where
  kept :
    ∀ runId,
      after.slot? bucketPrefix (.baselineTombstone runId) =
        before.slot? bucketPrefix (.baselineTombstone runId)
  noNew :
    ∀ key record,
      after.body? key = some (.baselineTombstone record) →
        before.body? key = some (.baselineTombstone record)
  bundles :
    ∀ sha,
      (before.get? (bundleKey bucketPrefix refName sha)).isSome →
        (after.get? (bundleKey bucketPrefix refName sha)).isSome

/-- Nor does the chain change. -/
structure Aside (before after : World) : Prop
    extends SameRecords bucketPrefix refName before after where
  chain :
    after.body? (chainKey bucketPrefix refName) =
      before.body? (chainKey bucketPrefix refName)

/-- The chain of a locked section has been written. -/
structure Committed
    (manifest : ChainManifest) (locked world : World) : Prop
    extends SameRecords bucketPrefix refName locked world where
  chain :
    world.body? (chainKey bucketPrefix refName) =
      some (.chain manifest)

/-- And so has the tombstone it decided on, if any. -/
structure Cleaned
    (manifest : ChainManifest)
    (superseded : Option Sha40)
    (locked world : World) : Prop where
  chain :
    world.body? (chainKey bucketPrefix refName) =
      some (.chain manifest)
  bundles :
    ∀ sha,
      (locked.get? (bundleKey bucketPrefix refName sha)).isSome →
        (world.get? (bundleKey bucketPrefix refName sha)).isSome
  named :
    ∀ sha,
      world.Tombstoned bucketPrefix refName sha →
        locked.Tombstoned bucketPrefix refName sha ∨
          superseded = some sha
  written :
    ∀ sha,
      superseded = some sha →
        ∃ runId record,
          world.slot? bucketPrefix (.baselineTombstone runId) =
              some (.baselineTombstone record) ∧
            record.v = tombstoneSchemaVersion ∧
            record.refName = refName.text ∧ record.sha = sha

variable {bucketPrefix refName}

theorem SameRecords.refl (world : World) :
    SameRecords bucketPrefix refName world world where
  kept := fun _ => rfl
  noNew := fun _ _ found => found
  bundles := fun _ present => present

theorem SameRecords.trans
    {first second third : World}
    (left : SameRecords bucketPrefix refName first second)
    (right : SameRecords bucketPrefix refName second third) :
    SameRecords bucketPrefix refName first third where
  kept := fun runId => (right.kept runId).trans (left.kept runId)
  noNew := fun key record found =>
    left.noNew key record (right.noNew key record found)
  bundles := fun sha present => right.bundles sha (left.bundles sha present)

theorem Aside.refl (world : World) :
    Aside bucketPrefix refName world world :=
  ⟨.refl world, rfl⟩

theorem Aside.trans
    {first second third : World}
    (left : Aside bucketPrefix refName first second)
    (right : Aside bucketPrefix refName second third) :
    Aside bucketPrefix refName first third :=
  ⟨left.toSameRecords.trans right.toSameRecords,
    right.chain.trans left.chain⟩

section Stable

variable
    {manifest : ChainManifest}
    {superseded : Option Sha40}
    {locked before after : World}
    (changed : Aside bucketPrefix refName before after)

include changed

theorem Committed.later
    (committed :
      Committed bucketPrefix refName manifest locked before) :
    Committed bucketPrefix refName manifest locked after :=
  ⟨committed.toSameRecords.trans changed.toSameRecords,
    changed.chain.trans committed.chain⟩

omit changed in
theorem SameRecords.tombstoned
    (records : SameRecords bucketPrefix refName before after)
    {sha : Sha40}
    (tombstoned : after.Tombstoned bucketPrefix refName sha) :
    before.Tombstoned bucketPrefix refName sha := by
  rcases tombstoned with ⟨key, record, named, stored, rest⟩
  exact ⟨key, record, named, records.noNew key record stored, rest⟩

theorem Cleaned.later
    (cleaned :
      Cleaned bucketPrefix refName manifest superseded locked before) :
    Cleaned bucketPrefix refName manifest superseded locked after where
  chain := changed.chain.trans cleaned.chain
  bundles := fun sha present =>
    changed.bundles sha (cleaned.bundles sha present)
  named := fun sha tombstoned =>
    cleaned.named sha (changed.tombstoned tombstoned)
  written := by
    intro sha same
    rcases cleaned.written sha same with ⟨runId, record, stored, rest⟩
    exact ⟨runId, record, (changed.kept runId).trans stored, rest⟩

omit changed in
/-- A section that writes no tombstone. -/
theorem Committed.cleaned
    (committed :
      Committed bucketPrefix refName manifest locked before) :
    Cleaned bucketPrefix refName manifest none locked before where
  chain := committed.chain
  bundles := committed.bundles
  named := fun _ tombstoned =>
    Or.inl (committed.tombstoned tombstoned)
  written := fun _ same => by cases same

omit changed in
/-- What a section decided on is tombstoned. -/
theorem Cleaned.tombstoned
    (cleaned :
      Cleaned bucketPrefix refName manifest superseded locked before)
    {sha : Sha40}
    (same : superseded = some sha) :
    before.Tombstoned bucketPrefix refName sha := by
  rcases cleaned.written sha same with ⟨runId, record, stored, rest⟩
  exact
    ⟨_, record, isBaselineTombstoneKey_slot runId, stored, rest⟩

end Stable

/-! ## Single calls -/

/-- Only the slot is written, and what is written is no tombstone. -/
theorem sameRecords_put
    {slot : Slot}
    {body : Body}
    (notTombstone : ∀ runId, slot ≠ .baselineTombstone runId)
    (plain : ∀ record, body ≠ .baselineTombstone record)
    (world : World) :
    SameRecords bucketPrefix refName world
      (world.put (slot.key bucketPrefix) body) where
  kept := by
    intro runId
    rw [slot?_put, if_neg (notTombstone runId).symm]
  noNew := by
    intro key record found
    rw [World.body?_put] at found
    split at found
    · exact absurd (Option.some.inj found) (plain record)
    · exact found
  bundles := by
    intro sha present
    rw [World.get?_put]
    split
    · rfl
    · exact present

theorem aside_put
    {slot : Slot}
    {body : Body}
    (notChain : slot ≠ .ref refName .chain)
    (notTombstone : ∀ runId, slot ≠ .baselineTombstone runId)
    (plain : ∀ record, body ≠ .baselineTombstone record)
    (world : World) :
    Aside bucketPrefix refName world
      (world.put (slot.key bucketPrefix) body) where
  toSameRecords := sameRecords_put notTombstone plain world
  chain := by
    rw [chainKey_eq]
    show World.slot? _ _ _ = World.slot? _ _ _
    rw [slot?_put, if_neg notChain.symm]

theorem aside_remove
    {slot : Slot}
    (notChain : slot ≠ .ref refName .chain)
    (notTombstone : ∀ runId, slot ≠ .baselineTombstone runId)
    (notBundle : ∀ sha, slot ≠ .ref refName (.bundle sha))
    (world : World) :
    Aside bucketPrefix refName world
      (world.remove (slot.key bucketPrefix)) where
  kept := by
    intro runId
    rw [slot?_remove, if_neg (notTombstone runId).symm]
  noNew := by
    intro key record found
    rw [World.body?_remove] at found
    split at found
    · cases found
    · exact found
  bundles := by
    intro sha present
    rw [bundleKey_eq] at present ⊢
    rw [World.get?_remove_ne _ _ fun same =>
      notBundle sha ((Slot.key_inj bucketPrefix).1 same).symm]
    exact present
  chain := by
    rw [chainKey_eq]
    show World.slot? _ _ _ = World.slot? _ _ _
    rw [slot?_remove, if_neg notChain.symm]

/-- Calls that leave the chain and the records of baselines alone. -/
def Quiet
    (bucketPrefix : Option Text)
    (refName : RefName)
    (request : Call) : Prop :=
  ∀ world : World,
    Aside bucketPrefix refName world (answer request world).2

theorem quiet_reads
    (request : Call)
    (reads : request.Reads) :
    Quiet bucketPrefix refName request := by
  intro world
  have same : (answer request world).2.get? = world.get? := by
    cases request with
    | get key =>
        simp only [answer]
        split <;> rfl
    | head key =>
        simp only [answer]
        split <;> rfl
    | put key body => exact reads.elim
    | putIfAbsent key body => exact reads.elim
    | delete key => exact reads.elim
    | _ => rfl
  have bodies (key : Text) :
      (answer request world).2.body? key = world.body? key := by
    unfold World.body?
    rw [same]
  constructor
  · constructor
    · exact fun runId => bodies _
    · intro key record found
      rw [bodies] at found
      exact found
    · intro sha present
      rw [same]
      exact present
  · exact bodies _

theorem quiet_put
    {slot : Slot}
    {body : Body}
    (notChain : slot ≠ .ref refName .chain)
    (notTombstone : ∀ runId, slot ≠ .baselineTombstone runId)
    (plain : ∀ record, body ≠ .baselineTombstone record) :
    Quiet bucketPrefix refName (.put (slot.key bucketPrefix) body) :=
  aside_put notChain notTombstone plain

theorem quiet_putIfAbsent
    {slot : Slot}
    {body : Body}
    (notChain : slot ≠ .ref refName .chain)
    (notTombstone : ∀ runId, slot ≠ .baselineTombstone runId)
    (plain : ∀ record, body ≠ .baselineTombstone record) :
    Quiet bucketPrefix refName
      (.putIfAbsent (slot.key bucketPrefix) body) := by
  intro world
  simp only [answer]
  split
  · exact .refl world
  · exact aside_put notChain notTombstone plain world

theorem quiet_delete
    {slot : Slot}
    (notChain : slot ≠ .ref refName .chain)
    (notTombstone : ∀ runId, slot ≠ .baselineTombstone runId)
    (notBundle : ∀ sha, slot ≠ .ref refName (.bundle sha)) :
    Quiet bucketPrefix refName (.delete (slot.key bucketPrefix)) := by
  intro world
  simp only [answer]
  split
  · exact aside_remove notChain notTombstone notBundle world
  · exact .refl world

/-- Uploads before the lock. -/
theorem quiet_upload
    {slot : Slot}
    (upload : IsUpload refName slot)
    (content : List UInt8) :
    Quiet bucketPrefix refName
      (.put (slot.key bucketPrefix) (.file content)) := by
  apply quiet_put
  · rintro rfl
    exact upload.elim
  · rintro runId rfl
    exact upload.elim
  · simp

/-! ## Programs of a locked section -/

variable {ι : Type} [DecidableEq ι] {client : ι}

variable (bucketPrefix refName ι) in
/-- Under the lock, the others only prepare. -/
def locked : Contract Call (Watched ι) where
  rely := fun state later =>
    Aside bucketPrefix refName state.world later.world
  invariant := fun _ => True
  met := fun _ _ => True
  guarantee := fun _ _ => True
  rely_refl := fun state => .refl state.world
  rely_trans := fun _ _ _ first second => first.trans second

/-- What only the chain and the records of baselines bear on. -/
def Lasting
    (bucketPrefix : Option Text)
    (refName : RefName)
    (holds : World → Prop) : Prop :=
  ∀ before after : World,
    Aside bucketPrefix refName before after →
      holds before → holds after

section Sections

variable
    {ε α : Type}
    {holds : World → Prop}
    {state : Watched ι}

/-- A stretch of quiet calls. -/
theorem safe_quiet
    (lasting : Lasting bucketPrefix refName holds)
    {program : Program ε α}
    (issues : Issues Call.Credible (Quiet bucketPrefix refName) program)
    (before : holds state.world) :
    Safe (locked bucketPrefix refName ι) (Watched.watch client)
      (fun _ later => holds later.world) program state :=
  @Issues.safe _ _ _ _ _ (locked bucketPrefix refName ι)
    (Watched.watch client) Call.Credible (Quiet bucketPrefix refName)
    (fun later => holds later.world) (Watched.credible_watch client)
    (fun _ state quiet _ _ kept =>
      ⟨⟨trivial, trivial⟩, lasting _ _ (quiet state.world) kept⟩)
    (fun state later changed kept =>
      lasting state.world later.world changed kept)
    program issues state before

/-- A write under the lock does not fail. -/
theorem safe_write
    {after : World → Prop}
    {failed : Prop}
    {key : Text}
    {body : Body}
    (lasting : Lasting bucketPrefix refName holds)
    (lastingAfter : Lasting bucketPrefix refName after)
    (writes : ∀ world, holds world → after (world.put key body))
    (before : holds state.world) :
    Safe (locked bucketPrefix refName ι) (Watched.watch client)
      (okOr failed fun _ later => after later.world)
      (Store.putBytes key body) state := by
  intro written changed _ _
  refine ⟨⟨trivial, trivial⟩, ?_⟩
  intro later more _
  exact
    lastingAfter _ _ more
      (writes _ (lasting _ _ changed before))

theorem safe_sure_mapError
    {ε' : Type}
    {failed : Prop}
    {convert : ε' → ε}
    {program : Program ε' α}
    {post : α → Watched ι → Prop}
    (safe :
      Safe (locked bucketPrefix refName ι) (Watched.watch client)
        (okOr failed post) program state) :
    Safe (locked bucketPrefix refName ι) (Watched.watch client)
      (okOr failed post) (program.mapError convert) state := by
  apply Safe.mapError
  apply safe.weaken
  intro outcome later _ known
  cases outcome with
  | ok value => exact known
  | error error => exact known

/-- Nor does a deletion. -/
theorem safe_drop
    {failed : Prop}
    {slot : Slot}
    (lasting : Lasting bucketPrefix refName holds)
    (quiet :
      Quiet bucketPrefix refName (.delete (slot.key bucketPrefix)))
    (before : holds state.world) :
    Safe (locked bucketPrefix refName ι) (Watched.watch client)
      (okOr failed fun _ later => holds later.world)
      (deleteIdempotent (slot.key bucketPrefix)) state := by
  intro found changed _ _
  refine ⟨⟨trivial, trivial⟩, ?_⟩
  have kept :
      holds
        (Watched.watch client (.delete (slot.key bucketPrefix))
          found).2.world :=
    lasting _ _ (quiet found.world) (lasting _ _ changed before)
  have replied :
      (Watched.watch client (.delete (slot.key bucketPrefix)) found).1 =
          .ok () ∨
        (Watched.watch client (.delete (slot.key bucketPrefix)) found).1 =
          .error (.notFound (slot.key bucketPrefix)) := by
    simp only [Watched.watch_reply, answer]
    cases found.world.get? (slot.key bucketPrefix) with
    | none => exact Or.inr rfl
    | some object => exact Or.inl rfl
  rcases replied with same | same
  · rw [same]
    exact fun later more _ => lasting _ _ more kept
  · rw [same]
    exact fun later more _ => lasting _ _ more kept

/-! ## The tombstone of a superseded baseline -/

/-- What a section that replaces one baseline by another tombstones. -/
def replaced (prior next : Sha40) : Option Sha40 :=
  if prior = next then none else some prior

variable
    {manifest : ChainManifest}
    {start : World}

/-- A tombstone written once the chain is. -/
theorem Committed.tombstone
    {world : World}
    (committed :
      Committed bucketPrefix refName manifest start world)
    (runId : Component)
    (markedAt : Option Int)
    (prior : Sha40) :
    Cleaned bucketPrefix refName manifest (some prior) start
      (world.put ((Slot.baselineTombstone runId).key bucketPrefix)
        (.baselineTombstone
          ⟨tombstoneSchemaVersion, markedAt, refName.text, prior⟩)) where
  chain := by
    have stored := committed.chain
    rw [chainKey_eq] at stored ⊢
    show World.slot? _ _ _ = _
    rw [slot?_put, if_neg (by simp)]
    exact stored
  bundles := by
    intro sha present
    rw [World.get?_put]
    split
    · rfl
    · exact committed.bundles sha present
  named := by
    rintro sha ⟨key, record, named, stored, version, ref, same⟩
    rw [World.body?_put] at stored
    split at stored
    · cases stored
      exact Or.inr (congrArg some same)
    · left
      exact committed.tombstoned
        ⟨key, record, named, stored, version, ref, same⟩
  written := by
    intro sha same
    cases same
    refine
      ⟨runId, ⟨tombstoneSchemaVersion, markedAt, refName.text, prior⟩, ?_,
        rfl, rfl, rfl⟩
    rw [slot?_put, if_pos rfl]

theorem lasting_committed :
    Lasting bucketPrefix refName
      (Committed bucketPrefix refName manifest start) :=
  fun _ _ changed committed => committed.later changed

theorem lasting_cleaned
    {superseded : Option Sha40} :
    Lasting bucketPrefix refName
      (Cleaned bucketPrefix refName manifest superseded start) :=
  fun _ _ changed cleaned => cleaned.later changed

theorem lasting_aside :
    Lasting bucketPrefix refName
      (Aside bucketPrefix refName start) :=
  fun _ _ changed before => before.trans changed

theorem safe_writeBaselineTombstone
    {failed : Prop}
    {prior sha : Sha40}
    (committed :
      Committed bucketPrefix refName manifest start state.world) :
    Safe (locked bucketPrefix refName ι) (Watched.watch client)
      (okOr failed fun _ later =>
        Cleaned bucketPrefix refName manifest (replaced prior sha) start
          later.world)
      (writeBaselineTombstone bucketPrefix refName prior sha) state := by
  unfold writeBaselineTombstone replaced
  split
  · intro later changed _
    exact (committed.later changed).cleaned
  · intro timed changed _ _
    refine ⟨⟨trivial, trivial⟩, ?_⟩
    intro named more _ _
    refine ⟨⟨trivial, trivial⟩, ?_⟩
    apply safe_sure_mapError
    rw [baselineTombstoneKey_eq]
    apply safe_write lasting_committed lasting_cleaned
    · intro world before
      exact before.tombstone _ _ _
    · exact
        (((committed.later changed).later
          (quiet_reads .nowUtc trivial timed.world)).later more).later
            (quiet_reads .newUuid trivial named.world)

/-- The cleanup a section ends with. -/
theorem safe_writeBaselineTombstoneBestEffort
    {prior sha : Sha40}
    (committed :
      Committed bucketPrefix refName manifest start state.world) :
    Safe (locked bucketPrefix refName ι) (Watched.watch client)
      (okOr False fun _ later =>
        Cleaned bucketPrefix refName manifest (replaced prior sha) start
          later.world)
      (writeBaselineTombstoneBestEffort bucketPrefix refName prior sha :
        Program ε Bool) state := by
  unfold writeBaselineTombstoneBestEffort
  apply
    (safe_writeBaselineTombstone committed :
      Safe _ _ (okOr False _) _ _).attemptOr.thenOr
  intro outcome later _ cleaned
  cases outcome with
  | error error => exact cleaned.elim
  | ok _ => exact fun _ changed _ => cleaned.later changed

/-- A section commits its manifest. -/
theorem safe_writeChain
    {failed : Prop}
    (aside : Aside bucketPrefix refName start state.world) :
    Safe (locked bucketPrefix refName ι) (Watched.watch client)
      (okOr failed fun _ later =>
        Committed bucketPrefix refName manifest start later.world)
      (writeChain bucketPrefix refName manifest) state := by
  unfold writeChain
  apply safe_sure_mapError
  rw [chainKey_eq]
  apply safe_write lasting_aside lasting_committed _ aside
  intro world before
  refine
    ⟨before.toSameRecords.trans (sameRecords_put ?_ ?_ world), ?_⟩
  · intro runId same
    cases same
  · intro record same
    cases same
  · rw [chainKey_eq]
    show World.slot? _ _ _ = _
    rw [slot?_put, if_pos rfl]

/-- An object that is neither the chain nor a record of a baseline. -/
theorem safe_writeAside
    {slot : Slot}
    {body : Body}
    (notChain : slot ≠ .ref refName .chain)
    (notTombstone : ∀ runId, slot ≠ .baselineTombstone runId)
    (plain : ∀ record, body ≠ .baselineTombstone record)
    (lasting : Lasting bucketPrefix refName holds)
    {failed : Prop}
    (before : holds state.world) :
    Safe (locked bucketPrefix refName ι) (Watched.watch client)
      (okOr failed fun _ later => holds later.world)
      (Store.putBytes (slot.key bucketPrefix) body) state :=
  safe_write lasting lasting
    (fun world =>
      lasting _ _ (aside_put notChain notTombstone plain world))
    before

theorem safe_writePathIndex
    {failed : Prop}
    (lasting : Lasting bucketPrefix refName holds)
    (index : PathIndex)
    (before : holds state.world) :
    Safe (locked bucketPrefix refName ι) (Watched.watch client)
      (okOr failed fun _ later => holds later.world)
      (writePathIndex bucketPrefix refName index) state := by
  unfold writePathIndex
  apply safe_sure_mapError
  rw [pathIndexKey_eq]
  apply safe_writeAside _ _ _ lasting before
  · simp
  · simp
  · simp

/-! ## Pushes -/

/-- What the cleanup of a push tombstones. -/
def cleanedUp (ready : ReadyState) : Option Sha40 :=
  if ready.force then
    ready.prior.bind fun prior => replaced prior.fullAt ready.localSha
  else none

variable (bucketPrefix refName manifest start) in
/-- How a section ends: without a commit, or cleaned up. -/
def Ended (superseded : Option Sha40) (world : World) : Prop :=
  Aside bucketPrefix refName start world ∨
    Cleaned bucketPrefix refName manifest superseded start world

theorem safe_writeOrDropPathIndex
    {failed : Prop}
    (lasting : Lasting bucketPrefix refName holds)
    (pathIndex : Option PathIndex)
    (before : holds state.world) :
    Safe (locked bucketPrefix refName ι) (Watched.watch client)
      (okOr failed fun _ later => holds later.world)
      (writeOrDropPathIndex bucketPrefix refName pathIndex) state := by
  cases pathIndex with
  | some index =>
      apply safe_sure_mapError
      exact safe_writePathIndex lasting index before
  | none =>
      apply safe_sure_mapError
      rw [pathIndexKey_eq]
      apply safe_drop lasting _ before
      apply quiet_delete
      · simp
      · simp
      · simp

theorem safe_forcePushBaselineCleanup
    {prior : Option ChainManifest}
    {sha : Sha40}
    (committed :
      Committed bucketPrefix refName manifest start state.world) :
    Safe (locked bucketPrefix refName ι) (Watched.watch client)
      (okOr False fun _ later =>
        Cleaned bucketPrefix refName manifest
          (prior.bind fun prior => replaced prior.fullAt sha) start
          later.world)
      (forcePushBaselineCleanup bucketPrefix refName prior sha :
        Program ε Unit) state := by
  cases prior with
  | none =>
      intro later changed _
      exact (committed.later changed).cleaned
  | some prior =>
      apply (safe_writeBaselineTombstoneBestEffort committed).thenOr
      intro _ written _ cleaned later changed _
      exact cleaned.later changed

/-- Once the manifest is written, a push writes on and cleans up. -/
theorem safe_commitPush
    {ready : ReadyState}
    (sameRef : ready.remoteRef = refName)
    (pathIndex : Option PathIndex)
    (aside : Aside bucketPrefix refName start state.world) :
    Safe (locked bucketPrefix refName ι) (Watched.watch client)
      (fun _ later =>
        Ended bucketPrefix refName (committedManifest ready) start
          (cleanedUp ready) later.world)
      (commitPush bucketPrefix ready pathIndex) state := by
  have bootstrapping
      {slot : Slot}
      {text : Text}
      {now : Watched ι}
      (notChain : slot ≠ .ref refName .chain)
      (notTombstone : ∀ runId, slot ≠ .baselineTombstone runId)
      (before : Aside bucketPrefix refName start now.world) :
      Safe (locked bucketPrefix refName ι) (Watched.watch client)
        (fun _ later => Aside bucketPrefix refName start later.world)
        ((Store.putIfAbsent (slot.key bucketPrefix)
          (.text text)).mapError PushError.store)
        now := by
    apply safe_quiet lasting_aside _ before
    apply Issues.mapError
    apply issues_request
    · exact quiet_putIfAbsent notChain notTombstone (by simp)
    · simp
  unfold commitPush
  rw [formatKey_eq, headKey_eq, sameRef]
  apply (bootstrapping (by simp) (by simp) aside).bind
  · intro _ formatted _ aside
    apply (bootstrapping (by simp) (by simp) aside).bind
    · intro _ pointed _ aside
      apply
        (safe_sure_mapError
          (safe_writeChain aside :
            Safe _ _ (okOr False _) _ pointed)).bind
      · intro _ stored _ committed
        apply
          (safe_writeOrDropPathIndex lasting_committed pathIndex committed :
            Safe _ _ (okOr False _) _ stored).bind
        · intro _ indexed _ committed
          unfold cleanedUp
          split
          · apply (safe_forcePushBaselineCleanup committed).bind
            · intro _ cleared _ cleaned later changed _
              exact Or.inr (cleaned.later changed)
            · exact fun _ _ _ failed => failed.elim
          · intro later changed _
            exact Or.inr (committed.later changed).cleaned
        · exact fun _ _ _ failed => failed.elim
      · exact fun _ _ _ failed => failed.elim
    · exact fun _ _ _ aside => Or.inl aside
  · exact fun _ _ _ aside => Or.inl aside

theorem safe_performPushUnderLock
    {repo : LocalRepo}
    {ready : ReadyState}
    (sameRef : ready.remoteRef = refName)
    (aside : Aside bucketPrefix refName start state.world) :
    Safe (locked bucketPrefix refName ι) (Watched.watch client)
      (fun _ later =>
        Ended bucketPrefix refName (committedManifest ready) start
          (cleanedUp ready) later.world)
      (performPushUnderLock bucketPrefix repo ready) state := by
  unfold performPushUnderLock
  rw [sameRef]
  apply
    (safe_quiet lasting_aside
      (issues_loadChain quiet_reads _ _).mapError aside).bind
  · intro current read _ aside
    apply
      (safe_quiet lasting_aside
        (issues_forceRefused quiet_reads _ repo ready current) aside).bind
    · intro refused checked _ aside
      split
      · exact fun _ changed _ => Or.inl (aside.trans changed)
      split
      · exact fun _ changed _ => Or.inl (aside.trans changed)
      cases pathIndexOf repo ready.localSha with
      | error error =>
          exact fun _ changed _ => Or.inl (aside.trans changed)
      | ok pathIndex => exact safe_commitPush sameRef pathIndex aside
    · exact fun _ _ _ aside => Or.inl aside
  · exact fun _ _ _ aside => Or.inl aside

/-! ## Compactions -/

theorem safe_writePathIndexIfAny
    {failed : Prop}
    (lasting : Lasting bucketPrefix refName holds)
    (pathIndex : Option PathIndex)
    (before : holds state.world) :
    Safe (locked bucketPrefix refName ι) (Watched.watch client)
      (okOr failed fun _ later => holds later.world)
      (writePathIndexIfAny bucketPrefix refName pathIndex) state := by
  cases pathIndex with
  | some index => exact safe_writePathIndex lasting index before
  | none => exact fun _ changed _ => lasting _ _ changed before

/-- A compaction tombstones the baseline of the chain it found. -/
theorem safe_commitCompaction
    {chain : ChainManifest}
    (built : BuiltPack × Option PathIndex × List UInt8)
    (aside : Aside bucketPrefix refName start state.world) :
    Safe (locked bucketPrefix refName ι) (Watched.watch client)
      (okOr False fun _ later =>
        Cleaned bucketPrefix refName (compactedManifest chain built.1)
          (replaced chain.fullAt chain.tip) start later.world)
      (commitCompaction bucketPrefix refName chain built) state := by
  have uploading
      {slot : Slot}
      {content : List UInt8}
      {now : Watched ι}
      (notChain : slot ≠ .ref refName .chain)
      (notTombstone : ∀ runId, slot ≠ .baselineTombstone runId)
      (before : Aside bucketPrefix refName start now.world) :
      Safe (locked bucketPrefix refName ι) (Watched.watch client)
        (okOr False fun _ later =>
          Aside bucketPrefix refName start later.world)
        ((Store.putPath (slot.key bucketPrefix) content).mapError
          PackchainError.store)
        now := by
    apply safe_sure_mapError
    exact
      safe_writeAside notChain notTombstone (by simp) lasting_aside before
  unfold commitCompaction
  simp only [packKey_eq, packIdxKey_eq, bundleKey_eq]
  apply (uploading (by simp) (by simp) aside).thenOr
  intro _ packed _ aside
  apply (uploading (by simp) (by simp) aside).thenOr
  intro _ indexed _ aside
  apply (uploading (by simp) (by simp) aside).thenOr
  intro _ bundled _ aside
  apply (safe_writeChain aside).thenOr
  intro _ stored _ committed
  apply
    (safe_writePathIndexIfAny lasting_committed built.2.1
      committed).thenOr
  intro _ listed _ committed
  apply (safe_writeBaselineTombstoneBestEffort committed).thenOr
  intro _ cleared _ cleaned later changed _
  exact cleaned.later changed

theorem safe_compactUnderLock
    (scratch : Scratch)
    (aside : Aside bucketPrefix refName start state.world) :
    Safe (locked bucketPrefix refName ι) (Watched.watch client)
      (fun _ later =>
        Aside bucketPrefix refName start later.world ∨
          ∃ chain pack,
            start.chain? bucketPrefix refName = some chain ∧
              Cleaned bucketPrefix refName (compactedManifest chain pack)
                (replaced chain.fullAt chain.tip) start later.world)
      (compactUnderLock bucketPrefix scratch refName) state := by
  have reading :
      Safe (locked bucketPrefix refName ι) (Watched.watch client)
        (fun outcome later =>
          Aside bucketPrefix refName start later.world ∧
            ∀ current, outcome = .ok current →
              start.chain? bucketPrefix refName = current)
        (loadChain bucketPrefix refName) state := by
    apply safe_loadChain
    · exact fun _ => trivial
    · intro found later changed _ _ more _
      have unchanged := aside.trans changed
      refine ⟨unchanged.trans more, ?_⟩
      intro current loaded
      rw [unchanged.chain] at loaded
      exact loadedChain_eq_ok _ _ _ loaded
  unfold compactUnderLock
  apply reading.bind
  · intro found read _ known
    rcases known with ⟨aside, same⟩
    cases found with
    | none => exact fun _ changed _ => Or.inl (aside.trans changed)
    | some chain =>
        have present := same _ rfl
        apply
          (safe_quiet lasting_aside
            (issues_downloadChainArtefacts quiet_reads _ _
              scratch.completion chain)
            aside).bind
        · intro directory downloaded _ aside
          cases rebuild scratch chain directory with
          | error error =>
              exact fun _ changed _ => Or.inl (aside.trans changed)
          | ok built =>
              apply (safe_commitCompaction built aside).weaken
              intro outcome later _ cleaned
              cases outcome with
              | error error => exact cleaned.elim
              | ok pack =>
                  exact Or.inr ⟨chain, built.1, present, cleaned⟩
        · exact fun _ _ _ aside => Or.inl aside
  · exact fun _ _ _ known => Or.inl known.1

/-! ## What a section did about a baseline -/

/-- What locked work leaves behind, run for its effect. -/
theorem safe_toEffect
    {program : Program ε α}
    (lasting : Lasting bucketPrefix refName holds)
    (safe :
      Safe (locked bucketPrefix refName ι) (Watched.watch client)
        (fun _ later => holds later.world) program state) :
    Safe (locked bucketPrefix refName ι) (Watched.watch client)
      (fun _ later => holds later.world) (toEffect program) state := by
  have attempted :
      Safe (locked bucketPrefix refName ι) (Watched.watch client)
        (okOr False fun _ later => holds later.world)
        (program.attempt : Program Unit (Except ε α)) state := by
    apply safe.attemptOr.weaken
    intro outcome later _ known
    cases outcome with
    | ok outcome => exact known
    | error error => exact known
  apply attempted.bind
  · exact fun _ _ _ kept _ changed _ => lasting _ _ changed kept
  · exact fun _ _ _ failed => failed.elim

end Sections

section Outcomes

variable
    {manifest : ChainManifest}
    {superseded : Option Sha40}
    {start last : World}
    {sha : Sha40}
    (cleaned :
      Cleaned bucketPrefix refName manifest superseded start last)

include cleaned

theorem Cleaned.accounted
    (same : superseded = some sha) :
    Accounted bucketPrefix refName last sha :=
  Or.inr (cleaned.tombstoned same)

/-- A bundle that was in use is accounted for by the section itself. -/
theorem Cleaned.names_of_accounted
    (visible : start.Visible bucketPrefix refName sha)
    (accounted : Accounted bucketPrefix refName last sha) :
    superseded = some sha := by
  rcases accounted with gone | tombstoned
  · have present :
        (start.get? (bundleKey bucketPrefix refName sha)).isSome := by
      rw [bundleKey_eq]
      simpa [World.slot?, World.body?] using visible.1
    have still := cleaned.bundles sha present
    rw [gone] at still
    cases still
  · exact (cleaned.named sha tombstoned).resolve_left visible.2

end Outcomes

variable {manifest chain : ChainManifest}

/-- Whether a task rewrites the chain. -/
def Rewrites : Task → Prop
  | .push _ _ => True
  | .compact _ => True
  | _ => False

/--
A push knows the baseline it supersedes if the chain its preparation read
names it; a compaction reads the chain under the lock.
-/
def KnowsBaseline (task : Task) (chain : ChainManifest) : Prop :=
  match task with
  | .push _ ready =>
      ready.prior.map ChainManifest.fullAt = some chain.fullAt
  | _ => True

omit [Platform] in
theorem replaced_eq_some_iff
    {prior next sha : Sha40}
    (different : sha ≠ next) :
    replaced prior next = some sha ↔ prior = sha := by
  unfold replaced
  split
  next same =>
      constructor
      · intro none
        cases none
      · rintro rfl
        exact absurd same different
  next => exact Option.some_inj

/-- A push that moves the baseline tombstones the one it has read. -/
theorem cleanedUp_eq_some_iff
    {ready : ReadyState}
    {sha : Sha40}
    (different : sha ≠ (committedManifest ready).fullAt) :
    cleanedUp ready = some sha ↔
      ready.prior.map ChainManifest.fullAt = some sha := by
  unfold cleanedUp
  unfold committedManifest nextManifest at different
  cases forced : ready.force with
  | true =>
      simp only [forced] at different
      cases ready.prior with
      | none => simp
      | some prior =>
          simp only [if_true, Option.bind_some, Option.map_some,
            Option.some_inj]
          exact replaced_eq_some_iff different
  | false =>
      cases read : ready.prior with
      | none => simp
      | some prior =>
          simp only [forced, read] at different
          simp [Ne.symm different]

section Sections

variable {state : Watched ι} {start : World}

/-- What a task has tombstoned by its end, if it moved the baseline. -/
def Settled
    (bucketPrefix : Option Text)
    (refName : RefName)
    (task : Task)
    (start world : World) : Prop :=
  Aside bucketPrefix refName start world ∨
    ∃ manifest superseded,
      Cleaned bucketPrefix refName manifest superseded start world ∧
        ∀ chain,
          start.chain? bucketPrefix refName = some chain →
            chain.fullAt ≠ manifest.fullAt →
              (superseded = some chain.fullAt ↔
                KnowsBaseline task chain)

theorem lasting_settled
    {task : Task} :
    Lasting bucketPrefix refName
      (Settled bucketPrefix refName task start) := by
  intro before after changed settled
  rcases settled with aside | ⟨manifest, superseded, cleaned, known⟩
  · exact Or.inl (aside.trans changed)
  · exact Or.inr ⟨manifest, superseded, cleaned.later changed, known⟩

/-- The locked work of a push or a compaction. -/
theorem safe_work
    {task : Task}
    (rewrites : Rewrites task)
    (prepared :
      ∀ repo ready, task = .push repo ready → ready.remoteRef = refName)
    (state : Watched ι) :
    Safe (locked bucketPrefix refName ι) (Watched.watch client)
      (fun _ later =>
        Settled bucketPrefix refName task state.world later.world)
      (work bucketPrefix refName task) state := by
  cases task with
  | push repo ready =>
      apply safe_toEffect lasting_settled
      apply
        (safe_performPushUnderLock (prepared repo ready rfl)
          (.refl state.world)).weaken
      intro outcome later _ ended
      rcases ended with aside | cleaned
      · exact Or.inl aside
      · right
        refine ⟨_, _, cleaned, ?_⟩
        intro chain _ different
        exact cleanedUp_eq_some_iff different
  | compact scratch =>
      apply safe_toEffect lasting_settled
      apply (safe_compactUnderLock scratch (.refl state.world)).weaken
      intro outcome later _ ended
      rcases ended with aside | ⟨current, pack, present, cleaned⟩
      · exact Or.inl aside
      · right
        refine ⟨_, _, cleaned, ?_⟩
        intro chain found different
        rw [present] at found
        cases found
        exact iff_of_true ((replaced_eq_some_iff different).2 rfl) trivial
  | delete => exact rewrites.elim
  | deleteBranch => exact rewrites.elim

end Sections

/-! ## The clients of a reference -/

variable (bucketPrefix refName ι) in
/-- Without the lock, clients make quiet calls only. -/
def turns : Discipline ι Operation Call (Watched ι) where
  invariant := fun _ => True
  met := fun _ _ _ _ => True
  freeRely := fun _ _ _ => True
  heldRely := fun _ state later =>
    Aside bucketPrefix refName state.world later.world
  freeStep := fun _ _ state later =>
    Aside bucketPrefix refName state.world later.world
  heldStep := fun _ _ _ _ => True
  freeRely_refl := fun _ _ => trivial
  freeRely_trans := fun _ _ _ _ _ _ => trivial
  heldRely_refl := fun _ state => .refl state.world
  heldRely_trans := fun _ _ _ _ first second => first.trans second
  free_of_freeStep := fun _ _ _ _ _ _ _ => trivial
  held_of_freeStep := fun _ _ _ _ _ _ step => step
  free_of_heldStep := fun _ _ _ _ _ _ _ => trivial

theorem issues_prepare
    (operation : Operation) :
    Issues Call.Credible (Quiet bucketPrefix refName)
      (prepare bucketPrefix refName operation) := by
  cases operation with
  | push repo force localSpec =>
      simp only [prepare]
      split
      · trivial
      · apply
          (issues_preparePush quiet_reads
            (fun slot content upload => quiet_upload upload content)
            repo force localSpec).attempt.bind
        exact fun _ => trivial
  | compact scratch force =>
      apply (issues_prepareCompact quiet_reads _ _ force).attempt.bind
      exact fun _ => trivial
  | deleteBranch confirmed =>
      apply
        (issues_prepareDeleteBranch quiet_reads _ _
          confirmed).attempt.bind
      exact fun _ => trivial

theorem follows :
    (clients bucketPrefix refName ι).Follows
      (turns bucketPrefix refName ι) (fun _ _ _ _ => True) where
  ready_stable := fun _ _ _ _ _ _ _ => trivial
  begin := fun _ state _ =>
    ⟨trivial, fun _ _ => ⟨trivial, .refl state.world⟩⟩
  elapse := fun _ _ _ =>
    ⟨trivial, fun _ =>
      ⟨trivial,
        ⟨⟨fun _ => rfl, fun _ _ found => found,
            fun _ present => present⟩,
          rfl⟩⟩⟩
  prepare := by
    intro client operation state _
    have preparing :
        Safe ((turns bucketPrefix refName ι).free client operation)
          (Watched.watch client) (fun _ _ => True)
          (prepare bucketPrefix refName operation)
          (Watched.begin client state) :=
      @Issues.safe _ _ _ _ _
        ((turns bucketPrefix refName ι).free client operation)
        (Watched.watch client) Call.Credible (Quiet bucketPrefix refName)
        (fun _ => True) (Watched.credible_watch client)
        (fun _ state quiet _ _ _ =>
          ⟨⟨trivial, quiet state.world⟩, trivial⟩)
        (fun _ _ _ _ => trivial) _ (issues_prepare operation) _ trivial
    apply preparing.weaken
    intro outcome later _ _
    cases outcome with
    | ok prepared => exact fun _ _ => trivial
    | error error => trivial
  work := by
    intro client operation task state _ _
    have working :
        ∀ (program : Program Unit Unit) (state : Watched ι),
          Safe ((turns bucketPrefix refName ι).held client operation)
            (Watched.watch client) (fun _ _ => True) program state := by
      intro program
      induction program with
      | done value => exact fun _ _ _ _ => trivial
      | fail error => exact fun _ _ _ _ => trivial
      | call request next hypothesis =>
          exact fun _ _ _ _ _ => ⟨⟨trivial, trivial⟩, hypothesis _ _⟩
    exact working _ _

/-- A client has done what it took the lock for. -/
def Finished
    (pool : Pool ι Operation Call Reply Unit Task (Watched ι))
    (client : ι) : Prop :=
  ∃ operation, pool.phase client = .holding operation (.done ())

/-- What the locked work of a push or a compaction has settled. -/
theorem settled_of_finished
    {start : World}
    {pool taken last : Pool ι Operation Call Reply Unit Task (Watched ι)}
    {operation : Operation}
    {task : Task}
    (reached :
      (clients bucketPrefix refName ι).Reaches
        (Pool.Meets fun _ _ _ _ => True)
        (.quiet (.ofWorld start)) pool)
    (waiting : pool.phase client = .waiting operation task)
    (rewrites : Rewrites task)
    (takes :
      (clients bucketPrefix refName ι).Step pool (.lock client) taken)
    (within :
      (clients bucketPrefix refName ι).Reaches
        (fun pool action =>
          pool.Meets (fun _ _ _ _ => True) action ∧
            action.Continues client)
        taken last)
    (finished : Finished last client) :
    Settled bucketPrefix refName task pool.state.world
      last.state.world := by
  have prepared :
      ∀ repo ready, task = .push repo ready →
        ready.remoteRef = refName := by
    rintro repo ready rfl
    exact (ManifestUpdate.pushPrepared_of_waiting reached waiting).remoteRef
  have ok :
      pool.Ok (clients bucketPrefix refName ι)
        (turns bucketPrefix refName ι) (fun _ _ _ _ => True) :=
    reached.ok follows (fun _ _ meets => meets) (Pool.ok_quiet trivial)
  have takenOk :=
    ok.step follows (show pool.Meets _ (.lock client) from trivial) takes
  cases takes with
  | @lock client _ task' waits free =>
      rw [waiting] at waits
      cases waits
      have holding :
          (pool.move client pool.state (some client)
              (.holding operation
                (work bucketPrefix refName task))).phase client =
            .holding operation (work bucketPrefix refName task) := by
        simp [Pool.move]
      rcases
          System.Reaches.within follows
            (fun _ _ changed => changed)
            (fun _ _ _ _ => trivial)
            (fun _ _ => trivial)
            (fun _ _ allowed => allowed.1)
            (fun _ _ allowed => allowed.2)
            takenOk holding
            (safe_work (ι := ι) rewrites prepared pool.state)
            trivial within with
        ⟨-, program, holding, safe, -⟩
      rcases finished with ⟨ending, done⟩
      rw [done] at holding
      cases holding
      exact safe last.state (.refl _) trivial

/--
A push or a compaction that replaces a chain by one of another baseline
leaves the superseded bundle deleted or tombstoned if the chain a push has
read before the lock names that baseline; and if the bundle was there and not
tombstoned, then only so.
-/
theorem accounted_of_knowsBaseline
    {start : World}
    {pool taken last : Pool ι Operation Call Reply Unit Task (Watched ι)}
    {operation : Operation}
    {task : Task}
    (reached :
      (clients bucketPrefix refName ι).Reaches
        (Pool.Meets fun _ _ _ _ => True)
        (.quiet (.ofWorld start)) pool)
    (waiting : pool.phase client = .waiting operation task)
    (rewrites : Rewrites task)
    (takes :
      (clients bucketPrefix refName ι).Step pool (.lock client) taken)
    (within :
      (clients bucketPrefix refName ι).Reaches
        (fun pool action =>
          pool.Meets (fun _ _ _ _ => True) action ∧
            action.Continues client)
        taken last)
    (finished : Finished last client)
    (before :
      pool.state.world.chain? bucketPrefix refName = some chain)
    (after :
      last.state.world.chain? bucketPrefix refName = some manifest)
    (different : chain.fullAt ≠ manifest.fullAt) :
    (KnowsBaseline task chain →
        Accounted bucketPrefix refName last.state.world chain.fullAt) ∧
      (pool.state.world.Visible bucketPrefix refName chain.fullAt →
        (Accounted bucketPrefix refName last.state.world chain.fullAt ↔
          KnowsBaseline task chain)) := by
  have written := ((World.chain?_eq_some_iff _ _).1 after).1
  rcases
      settled_of_finished reached waiting rewrites takes within
        finished with
    aside | ⟨committed, superseded, cleaned, known⟩
  · have stored := ((World.chain?_eq_some_iff _ _).1 before).1
    rw [aside.chain, stored] at written
    cases written
    exact absurd rfl different
  · rw [cleaned.chain] at written
    cases written
    have names := known chain before different
    constructor
    · intro knows
      exact cleaned.accounted (names.2 knows)
    · intro visible
      constructor
      · intro accounted
        exact names.1 (cleaned.names_of_accounted visible accounted)
      · intro knows
        exact cleaned.accounted (names.2 knows)

end Clients

/-! ## Two schedules -/

section Schedules

attribute [local instance] Platform.simple

/-- Nothing is asked of the calls. -/
abbrev Whatever
    (pool : Pool Nat Operation Call Reply Unit Task (Watched Nat)) :
    Action Nat Operation → Prop :=
  pool.Meets fun _ _ _ _ => True

/-- A forced push up to the lock. -/
def forces (client : Nat) (name : Text) : List (Action Nat Operation) :=
  .start client (.push .linear true name) :: Action.calls client 4 ++
    [.settle client]

/-- A push, and a forced push prepared on it. -/
def forcedInTurn : List (Action Nat Operation) :=
  .start 0 (.push .linear false ['a']) :: Action.calls 0 4 ++
    .settle 0 :: .lock 0 :: Action.calls 0 5 ++
    .settle 0 :: forces 1 ['c']

/-- Two forced pushes prepared on one push; one of them is done. -/
def forcedTwice : List (Action Nat Operation) :=
  .start 0 (.push .linear false ['a']) :: Action.calls 0 4 ++
    .settle 0 :: .lock 0 :: Action.calls 0 5 ++
    .settle 0 :: forces 0 ['b'] ++ forces 1 ['c'] ++
    .lock 0 :: Action.calls 0 9 ++
    [.settle 0]

/-- Whether a client has done what it took the lock for. -/
def finished
    (pool : Pool Nat Operation Call Reply Unit Task (Watched Nat))
    (client : Nat) : Bool :=
  match pool.phase client with
  | .holding _ (.done _) => true
  | _ => false

theorem finished_eq_true
    {pool : Pool Nat Operation Call Reply Unit Task (Watched Nat)}
    {client : Nat}
    (done : finished pool client = true) :
    Finished pool client := by
  unfold finished at done
  split at done
  next operation value holding => exact ⟨operation, holding⟩
  next => cases done

/-- The chains a forced push finds and leaves, if their baselines differ. -/
def movedBaseline
    (pool last : Pool Nat Operation Call Reply Unit Task (Watched Nat))
    (client : Nat) :
    Option
      (Operation × LocalRepo × ReadyState × ChainManifest ×
        ChainManifest) :=
  match (pool.phase client).waiting?, pool.state.world.chain? none .main,
      last.state.world.chain? none .main with
  | some (operation, .push repo ready), some chain, some manifest =>
      if finished last client = true ∧ chain.fullAt ≠ manifest.fullAt then
        some (operation, repo, ready, chain, manifest)
      else none
  | _, _, _ => none

theorem movedBaseline_eq_some
    {pool last : Pool Nat Operation Call Reply Unit Task (Watched Nat)}
    {client : Nat}
    {operation : Operation}
    {repo : LocalRepo}
    {ready : ReadyState}
    {chain manifest : ChainManifest}
    (found :
      movedBaseline pool last client =
        some (operation, repo, ready, chain, manifest)) :
    pool.phase client = .waiting operation (.push repo ready) ∧
      pool.state.world.chain? none .main = some chain ∧
      last.state.world.chain? none .main = some manifest ∧
      Finished last client ∧ chain.fullAt ≠ manifest.fullAt := by
  unfold movedBaseline at found
  split at found
  next operation repo ready chain manifest waiting before after =>
      split at found
      next moved =>
          cases found
          exact
            ⟨Phase.waiting?_eq_some.1 waiting, before, after,
              finished_eq_true moved.1, moved.2⟩
      next => cases found
  next => cases found

/-- A bundle is there, and no tombstone names it. -/
def leaked (world : World) (sha : Sha40) : Bool :=
  (world.get? (bundleKey none .main sha)).isSome &&
    decide (bundleKey none .main sha ∉ hiddenKeys none world)

theorem not_accounted_of_leaked
    {world : World}
    {sha : Sha40}
    (leaks : leaked world sha = true) :
    ¬ Accounted none .main world sha := by
  unfold leaked at leaks
  rw [Bool.and_eq_true, decide_eq_true_eq] at leaks
  rintro (gone | tombstoned)
  · rw [gone] at leaks
    cases leaks.1
  · exact leaks.2 (bundleKey_mem_hiddenKeys.2 tombstoned)

/-- The bundle of the first of two concurrent forced pushes leaks. -/
theorem not_accounted_of_finished :
    ¬ ∀ pool taken last client operation task chain manifest,
      (clients none .main Nat).Reaches Whatever
          (.quiet (.ofWorld (.empty 0))) pool →
        pool.phase client = .waiting operation task →
        Rewrites task →
        (clients none .main Nat).Step pool (.lock client) taken →
        (clients none .main Nat).Reaches
            (fun pool action =>
              Whatever pool action ∧ action.Continues client)
            taken last →
        Finished last client →
        pool.state.world.chain? none .main = some chain →
        last.state.world.chain? none .main = some manifest →
        chain.fullAt ≠ manifest.fullAt →
          Accounted none .main last.state.world chain.fullAt := by
  intro always
  have executed :
      (((clients none .main Nat).schedule? Whatever forcedTwice
          (.quiet (.ofWorld (.empty 0)))).bind fun pool =>
        ((clients none .main Nat).step? pool (.lock 1)).bind fun taken =>
          ((clients none .main Nat).schedule?
              (fun pool action =>
                Whatever pool action ∧ action.Continues 1)
              (Action.calls 1 9) taken).bind fun last =>
            (movedBaseline pool last 1).map
              fun ⟨_, _, _, chain, _⟩ =>
                leaked last.state.world chain.fullAt) =
        some true := by
    decide +kernel
  rcases Option.bind_eq_some_iff.1 executed with ⟨pool, reached, known⟩
  rcases Option.bind_eq_some_iff.1 known with ⟨taken, locked, known⟩
  rcases Option.bind_eq_some_iff.1 known with ⟨last, worked, known⟩
  rcases Option.map_eq_some_iff.1 known with
    ⟨⟨operation, repo, ready, chain, manifest⟩, moved, leaks⟩
  rcases movedBaseline_eq_some moved with
    ⟨waiting, before, after, finished, different⟩
  apply not_accounted_of_leaked leaks
  exact
    always pool taken last 1 operation (.push repo ready) chain manifest
      (System.Reaches.refl.schedule reached) waiting trivial
      (System.step_of_step? locked) (System.Reaches.refl.schedule worked)
      finished before after different

theorem accounted_of_knowsBaseline_inTurn :
    ∃ pool taken last chain manifest,
      (clients none .main Nat).schedule? Whatever forcedInTurn
          (.quiet (.ofWorld (.empty 0))) = some pool ∧
        (clients none .main Nat).step? pool (.lock 1) = some taken ∧
        (clients none .main Nat).schedule?
            (fun pool action =>
              Whatever pool action ∧ action.Continues 1)
            (Action.calls 1 9) taken = some last ∧
        pool.state.world.chain? none .main = some chain ∧
        last.state.world.chain? none .main = some manifest ∧
        chain.fullAt ≠ manifest.fullAt ∧
        Accounted none .main last.state.world chain.fullAt := by
  have executed :
      (((clients none .main Nat).schedule? Whatever forcedInTurn
          (.quiet (.ofWorld (.empty 0)))).bind fun pool =>
        ((clients none .main Nat).step? pool (.lock 1)).bind fun taken =>
          ((clients none .main Nat).schedule?
              (fun pool action =>
                Whatever pool action ∧ action.Continues 1)
              (Action.calls 1 9) taken).bind fun last =>
            (movedBaseline pool last 1).map
              fun ⟨_, _, ready, chain, _⟩ =>
                decide
                  (ready.prior.map ChainManifest.fullAt =
                    some chain.fullAt)) =
        some true := by
    decide +kernel
  rcases Option.bind_eq_some_iff.1 executed with ⟨pool, reached, known⟩
  rcases Option.bind_eq_some_iff.1 known with ⟨taken, locked, known⟩
  rcases Option.bind_eq_some_iff.1 known with ⟨last, worked, known⟩
  rcases Option.map_eq_some_iff.1 known with
    ⟨⟨operation, repo, ready, chain, manifest⟩, moved, knows⟩
  rcases movedBaseline_eq_some moved with
    ⟨waiting, before, after, finished, different⟩
  have read :
      ready.prior.map ChainManifest.fullAt = some chain.fullAt :=
    of_decide_eq_true knows
  have accounted :=
    accounted_of_knowsBaseline (System.Reaches.refl.schedule reached)
      waiting trivial (System.step_of_step? locked)
      (System.Reaches.refl.schedule worked) finished before after different
  exact
    ⟨pool, taken, last, chain, manifest, reached, locked, worked, before,
      after, different, accounted.1 read⟩

end Schedules

end GitRemoteObjectStore.BaselineCleanup
