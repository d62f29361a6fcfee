import GitRemoteObjectStore.Compact

/-!
# Well-placed buckets and their tombstones

In a bucket written by the repository every key is a slot and every body is
of its slot's kind; the identifiers of baseline tombstones were all drawn.
In such a bucket the hidden bundles are those some baseline tombstone names,
and writing a tombstone hides exactly one more.
-/

namespace GitRemoteObjectStore

open CallProgram Prog

variable [Platform] (bucketPrefix : Option Text)

/-- The kind of body each slot holds. -/
def Slot.Accepts : Slot → Body → Prop
  | .ref _ (.bundle _), body => ∃ content, body = .file content
  | .ref _ .chain, body =>
      ∃ manifest, body = .chain manifest ∧
        manifest.v = ChainManifest.schemaVersion
  | .ref _ .pathIndex, body => ∃ index, body = .pathIndex index
  | .ref _ .lock, body => body = .text []
  | .ref _ .protectedMarker, body => body = .text []
  | .ref _ .archive, body => ∃ content, body = .file content
  | .pack _, body => ∃ content, body = .file content
  | .idx _, body => ∃ content, body = .file content
  | .tombstone _, body => ∃ record, body = .tombstone record
  | .baselineTombstone _, body =>
      ∃ record : BaselineTombstone,
        body = .baselineTombstone record ∧
          record.v = tombstoneSchemaVersion ∧
          ∃ refName : RefName, refName.text = record.refName
  | .head, body => ∃ content, body = .text content
  | .format, body => ∃ content, body = .text content

namespace World

/-- What a slot holds. -/
def slot? (world : World) (slot : Slot) : Option Body :=
  world.body? (slot.key bucketPrefix)

/-- Every object is in a slot of its kind. -/
def Placed (world : World) : Prop :=
  ∀ key body,
    world.body? key = some body →
      ∃ slot : Slot, key = slot.key bucketPrefix ∧ slot.Accepts body

/-- Every baseline tombstone has an identifier drawn before. -/
def IdsDrawn (world : World) : Prop :=
  ∀ runId,
    (world.slot? bucketPrefix (.baselineTombstone runId)).isSome →
      ∃ count < world.drawn, runId = Platform.uuid count

/-- Some baseline tombstone names this bundle. -/
def Tombstoned
    (world : World) (refName : RefName) (sha : Sha40) : Prop :=
  ∃ key record,
    isBaselineTombstoneKey key (prefixText bucketPrefix) = true ∧
      world.body? key = some (.baselineTombstone record) ∧
      record.v = tombstoneSchemaVersion ∧
      record.refName = refName.text ∧ record.sha = sha

/-- A bundle that is there and that no tombstone hides. -/
def Visible
    (world : World) (refName : RefName) (sha : Sha40) : Prop :=
  (world.slot? bucketPrefix (.ref refName (.bundle sha))).isSome ∧
    ¬ world.Tombstoned bucketPrefix refName sha

/-- A bucket written by the repository. -/
structure Sound (world : World) : Prop where
  placed : world.Placed bucketPrefix
  idsDrawn : world.IdsDrawn bucketPrefix

/-- The same bundles are stored, and the same are hidden. -/
def SameBundles (world world' : World) : Prop :=
  ∀ refName sha,
    ((world'.slot? bucketPrefix (.ref refName (.bundle sha))).isSome ↔
      (world.slot? bucketPrefix (.ref refName (.bundle sha))).isSome) ∧
    (world'.Tombstoned bucketPrefix refName sha ↔
      world.Tombstoned bucketPrefix refName sha)

end World

/-- Neither a bundle nor a baseline tombstone. -/
def Slot.Ordinary : Slot → Prop
  | .ref _ (.bundle _) => False
  | .baselineTombstone _ => False
  | _ => True

variable {bucketPrefix}

/-! ## The hidden keys -/

theorem tombstonedKey_eq_some {body : Body} {key : Text} :
    tombstonedKey bucketPrefix body = some key ↔
      ∃ record : BaselineTombstone, ∃ refName : RefName,
        body = .baselineTombstone record ∧
          record.v = tombstoneSchemaVersion ∧
          record.refName = refName.text ∧
          key = bundleKey bucketPrefix refName record.sha := by
  unfold tombstonedKey
  cases parsed : BaselineTombstone.fromJsonBytes body with
  | error error =>
      simp only [reduceCtorEq, false_iff]
      rintro ⟨record, refName, sameBody, version, -, -⟩
      have accepted :=
        BaselineTombstone.fromJsonBytes_ok.2 ⟨sameBody, version⟩
      rw [parsed] at accepted
      cases accepted
  | ok record =>
      rcases BaselineTombstone.fromJsonBytes_ok.1 parsed with
        ⟨rfl, version⟩
      simp only [Option.map_eq_some_iff, Body.baselineTombstone.injEq]
      constructor
      · rintro ⟨refName, parsedName, rfl⟩
        exact ⟨record, refName, rfl, version,
          (RefName.text_of_new parsedName).symm, rfl⟩
      · rintro ⟨_, refName, rfl, -, sameName, rfl⟩
        exact ⟨refName, by rw [sameName, RefName.new_text], rfl⟩

/-- What reading one listed tombstone adds to the hidden keys. -/
def hideStep
    (bucketPrefix : Option Text)
    (world : World)
    (keys : List Text)
    (entry : ObjectMeta) : List Text :=
  if isBaselineTombstoneKey entry.key (prefixText bucketPrefix) then
    match (world.body? entry.key).bind (tombstonedKey bucketPrefix) with
    | some key => key :: keys
    | none => keys
  else keys

/-- The keys `tombstonedBundleKeys` returns. -/
def hiddenKeys
    (bucketPrefix : Option Text) (world : World) : List Text :=
  (world.listing (gcListingPrefix (prefixText bucketPrefix))).foldl
    (hideStep bucketPrefix world) []

theorem run_tombstonedBundleKeys (world : World) :
    run answer (tombstonedBundleKeys bucketPrefix) world =
      (.ok (hiddenKeys bucketPrefix world), world) := by
  simp only [tombstonedBundleKeys, run_bind, run_attempt, Store.run_list]
  refine run_foldEach_pure (hideStep bucketPrefix world) ?_ []
  intro keys entry member
  rcases World.mem_listing.1 member with ⟨-, object, found, -⟩
  by_cases named :
      isBaselineTombstoneKey entry.key (prefixText bucketPrefix) = true
  · simp only [hideStep, named, if_true, run_bind, run_attempt,
      Store.run_getBytes_present found, World.body?, found,
      Option.map_some, Option.bind_some]
    cases tombstonedKey bucketPrefix object.body <;> rfl
  · simp [hideStep, named]

theorem mem_foldl_hideStep
    {world : World}
    {key : Text}
    (entries : List ObjectMeta)
    (keys : List Text) :
    key ∈ entries.foldl (hideStep bucketPrefix world) keys ↔
      key ∈ keys ∨
        ∃ entry ∈ entries,
          isBaselineTombstoneKey entry.key (prefixText bucketPrefix) =
              true ∧
            (world.body? entry.key).bind (tombstonedKey bucketPrefix) =
              some key := by
  induction entries generalizing keys with
  | nil => simp
  | cons entry rest hypothesis =>
      rw [List.foldl_cons, hypothesis]
      simp only [List.mem_cons, exists_eq_or_imp]
      have one :
          key ∈ hideStep bucketPrefix world keys entry ↔
            key ∈ keys ∨
              (isBaselineTombstoneKey entry.key
                  (prefixText bucketPrefix) = true ∧
                (world.body? entry.key).bind
                  (tombstonedKey bucketPrefix) = some key) := by
        unfold hideStep
        split
        next named =>
            cases found :
                (world.body? entry.key).bind
                  (tombstonedKey bucketPrefix) with
            | none => simp
            | some other =>
                simp only [List.mem_cons, Option.some.injEq, named,
                  true_and]
                rw [or_comm, eq_comm]
        next foreign => simp [foreign]
      rw [one, or_assoc]

/-- The hidden keys are the bundles named by tombstones. -/
theorem bundleKey_mem_hiddenKeys
    {world : World}
    {refName : RefName}
    {sha : Sha40} :
    bundleKey bucketPrefix refName sha ∈ hiddenKeys bucketPrefix world ↔
      world.Tombstoned bucketPrefix refName sha := by
  rw [hiddenKeys, mem_foldl_hideStep]
  simp only [List.not_mem_nil, false_or, Option.bind_eq_some_iff,
    tombstonedKey_eq_some]
  constructor
  · rintro ⟨entry, member, named, body, found, record, other, rfl,
      version, sameName, sameKey⟩
    rw [bundleKey_eq, bundleKey_eq, Slot.key_inj] at sameKey
    cases sameKey
    exact ⟨entry.key, record, named, found, version, sameName, rfl⟩
  · rintro ⟨key, record, named, found, version, sameName, rfl⟩
    rcases Option.map_eq_some_iff.1 found with ⟨object, present, body⟩
    refine
      ⟨⟨key, object.lastModified⟩,
        World.mem_listing.2
          ⟨gcListingPrefix_of_isBaselineTombstoneKey named, object,
            present, rfl⟩,
        named, _, found, record, refName, rfl, version, sameName, rfl⟩

/-! ## Single writes and deletions -/

section Slots

variable {world : World} {slot : Slot} {body : Body}

theorem slot?_put (other : Slot) :
    (world.put (slot.key bucketPrefix) body).slot? bucketPrefix other =
      if other = slot then some body
      else world.slot? bucketPrefix other := by
  simp [World.slot?, World.body?_put]

theorem slot?_remove (other : Slot) :
    (world.remove (slot.key bucketPrefix)).slot? bucketPrefix other =
      if other = slot then none else world.slot? bucketPrefix other := by
  simp [World.slot?, World.body?_remove]

@[simp]
theorem slot?_wait (duration : Int) (other : Slot) :
    (world.wait duration).slot? bucketPrefix other =
      world.slot? bucketPrefix other :=
  rfl

theorem World.Placed.put
    (placed : world.Placed bucketPrefix)
    (accepts : slot.Accepts body) :
    (world.put (slot.key bucketPrefix) body).Placed bucketPrefix := by
  intro key found present
  rw [World.body?_put] at present
  split at present
  next same =>
      cases present
      exact ⟨slot, same, accepts⟩
  next different => exact placed key found present

theorem World.Placed.remove
    (placed : world.Placed bucketPrefix)
    (key : Text) :
    (world.remove key).Placed bucketPrefix := by
  intro other found present
  rw [World.body?_remove] at present
  split at present
  · cases present
  · exact placed other found present

theorem World.placed_empty (clock : Int) :
    (World.empty clock).Placed bucketPrefix := by
  intro key body present
  simp at present

/-- In a well-placed bucket tombstones are in their own slots. -/
theorem World.Placed.tombstoned_iff
    (placed : world.Placed bucketPrefix)
    {refName : RefName}
    {sha : Sha40} :
    world.Tombstoned bucketPrefix refName sha ↔
      ∃ runId record,
        world.slot? bucketPrefix (.baselineTombstone runId) =
            some (.baselineTombstone record) ∧
          record.refName = refName.text ∧ record.sha = sha := by
  constructor
  · rintro ⟨key, record, -, found, -, sameName, sameSha⟩
    rcases placed key _ found with ⟨slot, rfl, accepts⟩
    cases slot with
    | baselineTombstone runId =>
        exact ⟨runId, record, found, sameName, sameSha⟩
    | ref refName entry =>
        cases entry <;> simp [Slot.Accepts] at accepts
    | _ => simp [Slot.Accepts] at accepts
  · rintro ⟨runId, record, found, sameName, sameSha⟩
    rcases placed _ _ found with ⟨slot, sameKey, accepts⟩
    rw [Slot.key_inj] at sameKey
    subst sameKey
    rcases accepts with ⟨_, same, version, -⟩
    cases same
    exact ⟨_, record, isBaselineTombstoneKey_slot runId, found, version,
      sameName, sameSha⟩

/-- Only a baseline tombstone hides anything. -/
theorem World.Placed.tombstoned_put_iff
    (placed : world.Placed bucketPrefix)
    (accepts : slot.Accepts body)
    (ordinary : ∀ runId, slot ≠ .baselineTombstone runId)
    {refName : RefName}
    {sha : Sha40} :
    (world.put (slot.key bucketPrefix) body).Tombstoned bucketPrefix
        refName sha ↔
      world.Tombstoned bucketPrefix refName sha := by
  rw [(placed.put accepts).tombstoned_iff, placed.tombstoned_iff]
  simp only [slot?_put, fun runId => (ordinary runId).symm, if_false]

theorem World.Placed.tombstoned_remove_iff
    (placed : world.Placed bucketPrefix)
    (ordinary : ∀ runId, slot ≠ .baselineTombstone runId)
    {refName : RefName}
    {sha : Sha40} :
    (world.remove (slot.key bucketPrefix)).Tombstoned bucketPrefix
        refName sha ↔
      world.Tombstoned bucketPrefix refName sha := by
  rw [(placed.remove _).tombstoned_iff, placed.tombstoned_iff]
  simp only [slot?_remove, fun runId => (ordinary runId).symm, if_false]

/-- A tombstone in an unused slot hides its bundle and nothing else. -/
theorem World.Placed.tombstoned_put_fresh_iff
    (placed : world.Placed bucketPrefix)
    {runId : Component}
    (unused :
      world.slot? bucketPrefix (.baselineTombstone runId) = none)
    {markedAt : Option Int}
    {orphanRef refName : RefName}
    {orphanSha sha : Sha40} :
    (world.put ((Slot.baselineTombstone runId).key bucketPrefix)
        (.baselineTombstone
          ⟨tombstoneSchemaVersion, markedAt, orphanRef.text,
            orphanSha⟩)).Tombstoned bucketPrefix refName sha ↔
      world.Tombstoned bucketPrefix refName sha ∨
        (refName = orphanRef ∧ sha = orphanSha) := by
  have accepts :
      (Slot.baselineTombstone runId).Accepts
        (.baselineTombstone
          ⟨tombstoneSchemaVersion, markedAt, orphanRef.text,
            orphanSha⟩) :=
    ⟨_, rfl, rfl, orphanRef, rfl⟩
  rw [(placed.put accepts).tombstoned_iff, placed.tombstoned_iff]
  simp only [slot?_put, Slot.baselineTombstone.injEq]
  constructor
  · rintro ⟨other, record, found, sameName, sameSha⟩
    split at found
    · cases found
      exact Or.inr ⟨RefName.ext sameName.symm, sameSha.symm⟩
    · exact Or.inl ⟨other, record, found, sameName, sameSha⟩
  · rintro (⟨other, record, found, sameName, sameSha⟩ | ⟨rfl, rfl⟩)
    · have different : other ≠ runId := by
        rintro rfl
        rw [unused] at found
        cases found
      exact ⟨other, record, by rw [if_neg different, found], sameName,
        sameSha⟩
    · exact
        ⟨runId, ⟨_, markedAt, refName.text, sha⟩, by rw [if_pos rfl], rfl,
          rfl⟩

theorem World.IdsDrawn.put
    (drawn : world.IdsDrawn bucketPrefix)
    (ordinary : ∀ runId, slot ≠ .baselineTombstone runId) :
    (world.put (slot.key bucketPrefix) body).IdsDrawn bucketPrefix := by
  intro runId present
  rw [slot?_put, if_neg (ordinary runId).symm] at present
  exact drawn runId present

theorem World.IdsDrawn.remove
    (drawn : world.IdsDrawn bucketPrefix)
    (key : Text) :
    (world.remove key).IdsDrawn bucketPrefix := by
  intro runId present
  unfold World.slot? at present
  rw [World.body?_remove] at present
  split at present
  · simp at present
  · exact drawn runId present

theorem World.idsDrawn_empty (clock : Int) :
    (World.empty clock).IdsDrawn bucketPrefix := by
  intro runId present
  simp [World.slot?] at present

/-- The next identifier is in no baseline tombstone. -/
theorem World.IdsDrawn.unused
    (drawn : world.IdsDrawn bucketPrefix) :
    world.slot? bucketPrefix
        (.baselineTombstone (Platform.uuid world.drawn)) = none := by
  by_contra present
  rcases drawn _ (Option.ne_none_iff_isSome.1 present) with
    ⟨count, before, same⟩
  exact absurd (Platform.uuid_injective same) (by omega)

end Slots

/-! ## Writing a baseline tombstone -/

/-- The bucket after a baseline tombstone was written. -/
def World.tombstone
    (bucketPrefix : Option Text)
    (world : World)
    (refName : RefName)
    (sha : Sha40) : World :=
  ({ world with drawn := world.drawn + 1 } : World).put
    ((Slot.baselineTombstone (Platform.uuid world.drawn)).key
      bucketPrefix)
    (.baselineTombstone
      ⟨tombstoneSchemaVersion, some world.clock, refName.text, sha⟩)

@[simp]
theorem run_writeBaselineTombstoneUnconditional
    (world : World)
    (refName : RefName)
    (sha : Sha40) :
    run answer
        (writeBaselineTombstoneUnconditional bucketPrefix refName sha)
        world =
      (.ok (), world.tombstone bucketPrefix refName sha) := by
  simp [writeBaselineTombstoneUnconditional, run_bind, run_mapError,
    World.tombstone, World.put, Except.mapError]

theorem run_writeBaselineTombstoneBestEffort
    {ε : Type}
    (world : World)
    (refName : RefName)
    (prior current : Sha40) :
    run answer
        (writeBaselineTombstoneBestEffort bucketPrefix refName prior
          current : Program ε Bool)
        world =
      (.ok (decide (prior ≠ current)),
        if prior = current then world
        else world.tombstone bucketPrefix refName prior) := by
  by_cases same : prior = current
  · simp [writeBaselineTombstoneBestEffort, writeBaselineTombstone, same]
  · simp [writeBaselineTombstoneBestEffort, writeBaselineTombstone, same,
      run_bind, run_attempt]

/-- Only its own slot changes. -/
theorem slot?_tombstone
    {world : World}
    {refName : RefName}
    {sha : Sha40}
    {slot : Slot}
    (notTombstone : ∀ runId, slot ≠ .baselineTombstone runId) :
    (world.tombstone bucketPrefix refName sha).slot? bucketPrefix slot =
      world.slot? bucketPrefix slot := by
  rw [World.tombstone, slot?_put, if_neg (notTombstone _)]
  rfl

section Tombstone

variable
    {world : World}
    (placed : world.Placed bucketPrefix)
    (drawn : world.IdsDrawn bucketPrefix)
    (refName : RefName)
    (sha : Sha40)

include placed

theorem World.Placed.tombstone :
    (world.tombstone bucketPrefix refName sha).Placed bucketPrefix := by
  have stillPlaced :
      ({ world with drawn := world.drawn + 1 } : World).Placed
        bucketPrefix :=
    placed
  exact stillPlaced.put ⟨_, rfl, rfl, refName, rfl⟩

include drawn

omit placed in
theorem World.IdsDrawn.tombstone :
    (world.tombstone bucketPrefix refName sha).IdsDrawn bucketPrefix := by
  intro runId present
  rw [World.tombstone, slot?_put] at present
  split at present
  next same =>
      cases same
      exact ⟨world.drawn, Nat.lt_succ_self _, rfl⟩
  next different =>
      rcases drawn runId present with ⟨count, before, same⟩
      exact ⟨count, Nat.lt_succ_of_lt before, same⟩

theorem World.tombstoned_tombstone_iff
    {other : RefName}
    {otherSha : Sha40} :
    (world.tombstone bucketPrefix refName sha).Tombstoned bucketPrefix
        other otherSha ↔
      world.Tombstoned bucketPrefix other otherSha ∨
        (other = refName ∧ otherSha = sha) := by
  have stillPlaced :
      ({ world with drawn := world.drawn + 1 } : World).Placed
        bucketPrefix :=
    placed
  exact stillPlaced.tombstoned_put_fresh_iff drawn.unused

end Tombstone

/-! ## What leaves the bundles alone -/

section SameBundles

variable {world world' world'' : World} {slot : Slot} {body : Body}

theorem Slot.Ordinary.ne_baselineTombstone
    (ordinary : slot.Ordinary)
    (runId : Component) :
    slot ≠ .baselineTombstone runId := by
  rintro rfl
  exact ordinary

theorem Slot.Ordinary.ne_bundle
    (ordinary : slot.Ordinary)
    (refName : RefName)
    (sha : Sha40) :
    Slot.ref refName (.bundle sha) ≠ slot := by
  rintro rfl
  exact ordinary

theorem World.SameBundles.refl (world : World) :
    World.SameBundles bucketPrefix world world :=
  fun _ _ => ⟨Iff.rfl, Iff.rfl⟩

theorem World.SameBundles.trans
    (first : World.SameBundles bucketPrefix world world')
    (second : World.SameBundles bucketPrefix world' world'') :
    World.SameBundles bucketPrefix world world'' :=
  fun refName sha =>
    ⟨(second refName sha).1.trans (first refName sha).1,
      (second refName sha).2.trans (first refName sha).2⟩

theorem World.SameBundles.visible_iff
    (same : World.SameBundles bucketPrefix world world')
    (refName : RefName)
    (sha : Sha40) :
    world'.Visible bucketPrefix refName sha ↔
      world.Visible bucketPrefix refName sha := by
  unfold World.Visible
  rw [(same refName sha).1, (same refName sha).2]

theorem World.Sound.put
    (sound : world.Sound bucketPrefix)
    (accepts : slot.Accepts body)
    (notTombstone : ∀ runId, slot ≠ .baselineTombstone runId) :
    (world.put (slot.key bucketPrefix) body).Sound bucketPrefix :=
  ⟨sound.placed.put accepts, sound.idsDrawn.put notTombstone⟩

theorem World.Sound.remove
    (sound : world.Sound bucketPrefix)
    (key : Text) :
    (world.remove key).Sound bucketPrefix :=
  ⟨sound.placed.remove key, sound.idsDrawn.remove key⟩

theorem World.Sound.tombstone
    (sound : world.Sound bucketPrefix)
    (refName : RefName)
    (sha : Sha40) :
    (world.tombstone bucketPrefix refName sha).Sound bucketPrefix :=
  ⟨sound.placed.tombstone refName sha,
    sound.idsDrawn.tombstone refName sha⟩

theorem World.Sound.wait
    (sound : world.Sound bucketPrefix)
    (duration : Int) :
    (world.wait duration).Sound bucketPrefix :=
  ⟨sound.placed, sound.idsDrawn⟩

theorem World.sound_empty (clock : Int) :
    (World.empty clock).Sound bucketPrefix :=
  ⟨World.placed_empty clock, World.idsDrawn_empty clock⟩

theorem World.Sound.sameBundles_put
    (sound : world.Sound bucketPrefix)
    (accepts : slot.Accepts body)
    (ordinary : slot.Ordinary) :
    World.SameBundles bucketPrefix world
      (world.put (slot.key bucketPrefix) body) := by
  intro refName sha
  constructor
  · rw [slot?_put, if_neg (ordinary.ne_bundle refName sha)]
  · exact
      sound.placed.tombstoned_put_iff accepts
        ordinary.ne_baselineTombstone

theorem World.Sound.sameBundles_remove
    (sound : world.Sound bucketPrefix)
    (ordinary : slot.Ordinary) :
    World.SameBundles bucketPrefix world
      (world.remove (slot.key bucketPrefix)) := by
  intro refName sha
  constructor
  · rw [slot?_remove, if_neg (ordinary.ne_bundle refName sha)]
  · exact
      sound.placed.tombstoned_remove_iff ordinary.ne_baselineTombstone

/-- Create an object unless its key is taken. -/
def World.putIfAbsent
    (world : World) (key : Text) (body : Body) : World :=
  if (world.get? key).isSome then world else world.put key body

theorem run_putIfAbsent (world : World) (key : Text) (body : Body) :
    run answer (Store.putIfAbsent key body) world =
      (.ok (world.get? key).isNone, world.putIfAbsent key body) := by
  cases found : world.get? key with
  | none =>
      simp [Store.run_putIfAbsent_absent found, World.putIfAbsent, found]
  | some object =>
      simp [Store.run_putIfAbsent_present found, World.putIfAbsent, found]

theorem slot?_putIfAbsent_ne
    {world : World}
    {slot other : Slot}
    {body : Body}
    (different : other ≠ slot) :
    (world.putIfAbsent (slot.key bucketPrefix) body).slot? bucketPrefix
        other =
      world.slot? bucketPrefix other := by
  unfold World.putIfAbsent
  split
  · rfl
  · rw [slot?_put, if_neg different]

theorem World.Sound.putIfAbsent
    (sound : world.Sound bucketPrefix)
    (accepts : slot.Accepts body)
    (ordinary : slot.Ordinary) :
    (world.putIfAbsent (slot.key bucketPrefix) body).Sound bucketPrefix ∧
      World.SameBundles bucketPrefix world
        (world.putIfAbsent (slot.key bucketPrefix) body) := by
  unfold World.putIfAbsent
  split
  · exact ⟨sound, .refl world⟩
  · exact
      ⟨sound.put accepts ordinary.ne_baselineTombstone,
        sound.sameBundles_put accepts ordinary⟩

end SameBundles

end GitRemoteObjectStore
