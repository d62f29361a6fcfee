import GitRemoteObjectStore.BundleDeletion
import GitRemoteObjectStore.Interference

/-!
# The two snapshots of a push under the bundle engine

A push reads the tombstones once, before the lock, and the bundles twice:
before the lock and under it.  Both listings leave out what the one reading
of the tombstones named.  This is sound as long as nobody writes a bundle
that a tombstone names: then a bundle that is superseded in between has a
successor which neither snapshot hides, and the push finds two bundles.
-/

namespace GitRemoteObjectStore.StaleRemote

open CallProgram Prog GitRemoteObjectStore.Bundle

section Guard

variable [Platform]

/-! ## Clients of one reference -/

/-- `git push`, with an empty source for a deletion. -/
structure Command where
  repo : LocalRepo
  zip : Bool
  force : Bool
  localSpec : Text

/-- What is left to do under the lock. -/
inductive Task where
  | push (state : PushReadyState)
  | delete

/-- How a push ends that does not report `ok`. -/
inductive Failure where
  | refused (refName : RefName) (message : String)
  | failed (error : PushError)

/-- The status line of an operation. -/
def report : PushOutcome → Program Failure Unit
  | .ok _ => return ()
  | .error refName message => .fail (.refused refName message)

/-- A prepared push or deletion, unless it has been decided already. -/
def taskOf : PrepareOutcome → Program Failure (Option Task)
  | .ready state => return some (.push state)
  | .delete _ => return some .delete
  | .done outcome => do
      report outcome
      return none

def prepare
    (bucketPrefix : Option Text)
    (refName : RefName)
    (command : Command) : Program Failure (Option Task) := do
  let outcome ←
    (preparePush bucketPrefix command.repo command.zip
      ⟨command.force, command.localSpec, refName⟩).mapError .failed
  taskOf outcome

def work
    (bucketPrefix : Option Text)
    (refName : RefName) : Task → Program Failure Unit
  | .push state => do
      let outcome ←
        (performPushUnderLock bucketPrefix state).mapError .failed
      report outcome
  | .delete => do
      let outcome ←
        (deleteRemoteRefUnderLock bucketPrefix refName).mapError .failed
      report outcome

/-- Clients pushing to one reference and deleting it. -/
def clients
    (bucketPrefix : Option Text)
    (refName : RefName)
    (ι : Type) :
    System ι Command Call Reply Failure Task World where
  handler := fun _ => answer
  begin := fun _ world => world
  elapse := fun duration world => world.wait duration
  prepare := prepare bucketPrefix refName
  work := work bucketPrefix refName

/-! ## What a push has observed, and what is there -/

section Bundles

variable
    (bucketPrefix : Option Text)
    (refName : RefName)

/-- The bundle of a commit is stored. -/
def Stored (world : World) (sha : Sha40) : Prop :=
  (world.slot? bucketPrefix (.ref refName (.bundle sha))).isSome

/-- The keys of the bundles of the reference that no tombstone hides. -/
def visible (world : World) : Set Text :=
  { key |
    ∃ sha,
      world.Visible bucketPrefix refName sha ∧
        key = bundleKey bucketPrefix refName sha }

omit [Platform] in
/-- The keys a push has found before the lock. -/
def observed (preExisting : Option Text) : Set Text :=
  { key | preExisting = some key }

/-- A well-formed bucket with no bundle of a reference below this one. -/
structure Holds (world : World) : Prop where
  sound : world.Sound bucketPrefix
  own :
    ∀ other sha,
      (world.slot? bucketPrefix (.ref other (.bundle sha))).isSome →
        ¬ refName.text ++ ['/'] <+: other.text

/--
The hidden keys are tombstoned; a stored bundle that is tombstoned without
being hidden is not the only one left.
-/
structure Accounted (hidden : List Text) (world : World) : Prop where
  named :
    ∀ sha,
      bundleKey bucketPrefix refName sha ∈ hidden →
        world.Tombstoned bucketPrefix refName sha
  replaced :
    ∀ sha,
      Stored bucketPrefix refName world sha →
        world.Tombstoned bucketPrefix refName sha →
          bundleKey bucketPrefix refName sha ∉ hidden →
            ∃ other,
              other ≠ sha ∧ Stored bucketPrefix refName world other ∧
                bundleKey bucketPrefix refName other ∉ hidden

/-- No tombstone is lost, and all hidden keys stay accounted for. -/
structure Evolves (world later : World) : Prop where
  kept :
    ∀ runId body,
      world.slot? bucketPrefix (.baselineTombstone runId) = some body →
        later.slot? bucketPrefix (.baselineTombstone runId) = some body
  accounted :
    ∀ hidden,
      Accounted bucketPrefix refName hidden world →
        Accounted bucketPrefix refName hidden later

/-- The upload of a bundle that no tombstone names. -/
def FreshUpload (request : Call) (world : World) : Prop :=
  ∀ sha content,
    request = .put (bundleKey bucketPrefix refName sha) (.file content) →
      ¬ world.Tombstoned bucketPrefix refName sha

end Bundles

/-- The objects and the identifiers drawn are the same. -/
def Untouched (world later : World) : Prop :=
  later.bucket = world.bucket ∧ later.drawn = world.drawn

/-- The bundles and the tombstones are the same. -/
structure Apart
    (bucketPrefix : Option Text)
    (world later : World) : Prop where
  bundles : World.SameBundles bucketPrefix world later
  tombstones :
    ∀ runId,
      later.slot? bucketPrefix (.baselineTombstone runId) =
        world.slot? bucketPrefix (.baselineTombstone runId)

variable
    {bucketPrefix : Option Text}
    {refName : RefName}
    {world later last : World}
    {hidden : List Text}

/-! ## Steps that leave the bundles alone -/

omit [Platform] in
theorem Untouched.refl (world : World) : Untouched world world :=
  ⟨rfl, rfl⟩

omit [Platform] in
theorem Untouched.trans
    (first : Untouched world later)
    (second : Untouched later last) :
    Untouched world last :=
  ⟨second.1.trans first.1, second.2.trans first.2⟩

omit [Platform] in
theorem Untouched.get?
    (untouched : Untouched world later)
    (key : Text) :
    later.get? key = world.get? key := by
  unfold World.get?
  rw [untouched.1]

omit [Platform] in
theorem Untouched.body?
    (untouched : Untouched world later)
    (key : Text) :
    later.body? key = world.body? key := by
  unfold World.body?
  rw [untouched.get?]

theorem Untouched.slot?
    (untouched : Untouched world later)
    (slot : Slot) :
    later.slot? bucketPrefix slot = world.slot? bucketPrefix slot :=
  untouched.body? _

omit [Platform] in
theorem Untouched.listing
    (untouched : Untouched world later)
    (start : Text) :
    later.listing start = world.listing start := by
  unfold World.listing
  rw [untouched.1]

theorem Untouched.tombstoned_iff
    (untouched : Untouched world later)
    (refName : RefName)
    (sha : Sha40) :
    later.Tombstoned bucketPrefix refName sha ↔
      world.Tombstoned bucketPrefix refName sha := by
  unfold World.Tombstoned
  simp only [untouched.body?]

theorem Untouched.apart (untouched : Untouched world later) :
    Apart bucketPrefix world later where
  bundles := fun refName sha =>
    ⟨by rw [untouched.slot?], untouched.tombstoned_iff refName sha⟩
  tombstones := fun _ => untouched.slot? _

theorem Untouched.holds
    (untouched : Untouched world later)
    (holds : Holds bucketPrefix refName world) :
    Holds bucketPrefix refName later where
  sound :=
    { placed := by
        intro key body found
        rw [untouched.body?] at found
        exact holds.sound.placed key body found
      idsDrawn := by
        intro runId present
        rw [untouched.slot?] at present
        rw [untouched.2]
        exact holds.sound.idsDrawn runId present }
  own := by
    intro other sha present
    rw [untouched.slot?] at present
    exact holds.own other sha present

theorem Evolves.refl (world : World) :
    Evolves bucketPrefix refName world world :=
  ⟨fun _ _ found => found, fun _ accounted => accounted⟩

theorem Evolves.trans
    (first : Evolves bucketPrefix refName world later)
    (second : Evolves bucketPrefix refName later last) :
    Evolves bucketPrefix refName world last where
  kept := fun runId body found =>
    second.kept runId body (first.kept runId body found)
  accounted := fun hidden accounted =>
    second.accounted hidden (first.accounted hidden accounted)

theorem Apart.evolves (apart : Apart bucketPrefix world later) :
    Evolves bucketPrefix refName world later where
  kept := by
    intro runId body found
    rw [apart.tombstones, found]
  accounted := by
    intro hidden accounted
    have stored (sha : Sha40) :
        Stored bucketPrefix refName later sha ↔
          Stored bucketPrefix refName world sha :=
      (apart.bundles refName sha).1
    have tombstoned (sha : Sha40) :
        later.Tombstoned bucketPrefix refName sha ↔
          world.Tombstoned bucketPrefix refName sha :=
      (apart.bundles refName sha).2
    constructor
    · intro sha member
      exact (tombstoned sha).2 (accounted.named sha member)
    · intro sha present superseded shown
      rcases
          accounted.replaced sha ((stored sha).1 present)
            ((tombstoned sha).1 superseded) shown with
        ⟨other, different, kept, unhidden⟩
      exact ⟨other, different, (stored other).2 kept, unhidden⟩

/-! ## Single writes -/

theorem Apart.put
    {slot : Slot}
    {body : Body}
    (holds : Holds bucketPrefix refName world)
    (accepts : slot.Accepts body)
    (ordinary : slot.Ordinary) :
    Holds bucketPrefix refName (world.put (slot.key bucketPrefix) body) ∧
      Apart bucketPrefix world
        (world.put (slot.key bucketPrefix) body) := by
  have aside := ordinary.ne_baselineTombstone
  constructor
  · refine ⟨holds.sound.put accepts aside, ?_⟩
    intro other sha present
    rw [slot?_put, if_neg (ordinary.ne_bundle other sha)] at present
    exact holds.own other sha present
  · refine ⟨holds.sound.sameBundles_put accepts ordinary, ?_⟩
    intro runId
    rw [slot?_put, if_neg (aside runId).symm]

theorem Apart.remove
    {slot : Slot}
    (holds : Holds bucketPrefix refName world)
    (ordinary : slot.Ordinary) :
    Apart bucketPrefix world
      (world.remove (slot.key bucketPrefix)) where
  bundles := holds.sound.sameBundles_remove ordinary
  tombstones := by
    intro runId
    rw [slot?_remove,
      if_neg (ordinary.ne_baselineTombstone runId).symm]

theorem Holds.remove
    (holds : Holds bucketPrefix refName world)
    (key : Text) :
    Holds bucketPrefix refName (world.remove key) where
  sound := holds.sound.remove key
  own := by
    intro other sha present
    unfold World.slot? at present
    rw [World.body?_remove] at present
    split at present
    · cases present
    · exact holds.own other sha present

/-- A bundle that no tombstone names changes no account. -/
theorem Evolves.upload
    {sha : Sha40}
    {content : List UInt8}
    (holds : Holds bucketPrefix refName world)
    (fresh : ¬ world.Tombstoned bucketPrefix refName sha)
    (put :
      later =
        world.put ((Slot.ref refName (.bundle sha)).key bucketPrefix)
          (.file content)) :
    Holds bucketPrefix refName later ∧
      Evolves bucketPrefix refName world later ∧
        later.Visible bucketPrefix refName sha := by
  have accepts :
      (Slot.ref refName (.bundle sha)).Accepts (.file content) :=
    ⟨content, rfl⟩
  have aside (runId : Component) :
      Slot.ref refName (.bundle sha) ≠ .baselineTombstone runId := by
    simp
  have tombstoned (other : Sha40) :
      later.Tombstoned bucketPrefix refName other ↔
        world.Tombstoned bucketPrefix refName other := by
    rw [put]
    exact holds.sound.placed.tombstoned_put_iff accepts aside
  have slots (slot : Slot) :
      later.slot? bucketPrefix slot =
        if slot = .ref refName (.bundle sha) then some (.file content)
        else world.slot? bucketPrefix slot := by
    rw [put, slot?_put]
  refine
    ⟨⟨put ▸ holds.sound.put accepts aside, ?_⟩, ⟨?_, ?_⟩, ?_,
      fun superseded => fresh ((tombstoned sha).1 superseded)⟩
  · intro other otherSha present
    rw [slots] at present
    split at present
    next same =>
        cases same
        intro below
        have longer := below.length_le
        rw [List.length_append, List.length_singleton] at longer
        omega
    next => exact holds.own other otherSha present
  · intro runId body found
    rw [slots, if_neg (aside runId).symm, found]
  · intro hidden accounted
    constructor
    · intro other member
      exact (tombstoned other).2 (accounted.named other member)
    · intro other present superseded shown
      have before := (tombstoned other).1 superseded
      have different : other ≠ sha := by
        rintro rfl
        exact fresh before
      have stored : Stored bucketPrefix refName world other := by
        unfold Stored at present
        rw [slots, if_neg (by simpa using different)] at present
        exact present
      rcases accounted.replaced other stored before shown with
        ⟨third, apart, kept, unhidden⟩
      refine ⟨third, apart, ?_, unhidden⟩
      unfold Stored at kept ⊢
      rw [slots]
      split
      · rfl
      · exact kept
  · rw [slots, if_pos rfl]
    rfl

/--
A tombstone for one bundle while another one, which no tombstone names, is
stored.
-/
theorem Evolves.supersede
    {runId : Component}
    {markedAt : Option Int}
    {prior sha : Sha40}
    (holds : Holds bucketPrefix refName world)
    (drawn : ∃ count < world.drawn, runId = Platform.uuid count)
    (unused :
      world.slot? bucketPrefix (.baselineTombstone runId) = none)
    (different : prior ≠ sha)
    (shown : world.Visible bucketPrefix refName sha)
    (put :
      later =
        world.put ((Slot.baselineTombstone runId).key bucketPrefix)
          (.baselineTombstone
            ⟨tombstoneSchemaVersion, markedAt, refName.text, prior⟩)) :
    Holds bucketPrefix refName later ∧
      Evolves bucketPrefix refName world later := by
  have accepts :
      (Slot.baselineTombstone runId).Accepts
        (.baselineTombstone
          ⟨tombstoneSchemaVersion, markedAt, refName.text, prior⟩) :=
    ⟨_, rfl, rfl, refName, rfl⟩
  have tombstoned (other : Sha40) :
      later.Tombstoned bucketPrefix refName other ↔
        world.Tombstoned bucketPrefix refName other ∨
          (refName = refName ∧ other = prior) := by
    rw [put]
    exact holds.sound.placed.tombstoned_put_fresh_iff unused
  have slots (slot : Slot) :
      later.slot? bucketPrefix slot =
        if slot = .baselineTombstone runId then
          some (.baselineTombstone
            ⟨tombstoneSchemaVersion, markedAt, refName.text, prior⟩)
        else world.slot? bucketPrefix slot := by
    rw [put, slot?_put]
  have stored (other : RefName) (otherSha : Sha40) :
      later.slot? bucketPrefix (.ref other (.bundle otherSha)) =
        world.slot? bucketPrefix (.ref other (.bundle otherSha)) := by
    rw [slots, if_neg (by simp)]
  have counted : later.drawn = world.drawn := by
    rw [put]
    rfl
  refine
    ⟨⟨⟨put ▸ holds.sound.placed.put accepts, ?_⟩, ?_⟩, ⟨?_, ?_⟩⟩
  · intro other present
    rw [counted]
    rw [slots] at present
    split at present
    next same =>
        cases same
        exact drawn
    next => exact holds.sound.idsDrawn other present
  · intro other otherSha present
    rw [stored] at present
    exact holds.own other otherSha present
  · intro other body found
    rw [slots]
    split
    next same =>
        cases same
        rw [unused] at found
        cases found
    next => exact found
  · intro hidden accounted
    constructor
    · intro other member
      exact (tombstoned other).2 (Or.inl (accounted.named other member))
    · intro other present superseded unhidden
      unfold Stored at present
      rw [stored] at present
      rcases (tombstoned other).1 superseded with before | ⟨-, rfl⟩
      · rcases accounted.replaced other present before unhidden with
          ⟨third, apart, kept, free⟩
        refine ⟨third, apart, ?_, free⟩
        unfold Stored
        rw [stored]
        exact kept
      · refine
          ⟨sha, different.symm, ?_,
            fun member => shown.2 (accounted.named sha member)⟩
        unfold Stored
        rw [stored]
        exact shown.1

/-- The deletion of an object while at most one bundle is stored. -/
theorem Evolves.remove
    {slot : Slot}
    (holds : Holds bucketPrefix refName world)
    (aside : ∀ runId, slot ≠ .baselineTombstone runId)
    (single :
      ∀ sha other,
        Stored bucketPrefix refName world sha →
          Stored bucketPrefix refName world other → sha = other) :
    Evolves bucketPrefix refName world
      (world.remove (slot.key bucketPrefix)) where
  kept := by
    intro runId body found
    rw [slot?_remove, if_neg (aside runId).symm, found]
  accounted := by
    intro hidden accounted
    have tombstoned (sha : Sha40) :
        (world.remove (slot.key bucketPrefix)).Tombstoned bucketPrefix
            refName sha ↔
          world.Tombstoned bucketPrefix refName sha :=
      holds.sound.placed.tombstoned_remove_iff aside
    constructor
    · intro sha member
      exact (tombstoned sha).2 (accounted.named sha member)
    · intro sha present superseded shown
      have stored : Stored bucketPrefix refName world sha := by
        unfold Stored at present ⊢
        rw [slot?_remove] at present
        split at present
        · cases present
        · exact present
      rcases
          accounted.replaced sha stored ((tombstoned sha).1 superseded)
            shown with
        ⟨other, different, kept, -⟩
      exact absurd (single other sha kept stored) different

/-- Drawing an identifier changes no object. -/
theorem Apart.draw (holds : Holds bucketPrefix refName world) :
    Holds bucketPrefix refName
        ({ world with drawn := world.drawn + 1 } : World) ∧
      Apart bucketPrefix world
        ({ world with drawn := world.drawn + 1 } : World) := by
  refine
    ⟨⟨⟨holds.sound.placed, ?_⟩, holds.own⟩,
      ⟨fun _ _ => ⟨Iff.rfl, Iff.rfl⟩, fun _ => rfl⟩⟩
  intro runId present
  rcases holds.sound.idsDrawn runId present with ⟨count, before, same⟩
  exact ⟨count, Nat.lt_succ_of_lt before, same⟩

theorem Apart.read
    {request : Call}
    (reads : request.Reads)
    (holds : Holds bucketPrefix refName world) :
    Holds bucketPrefix refName (answer request world).2 ∧
      Apart bucketPrefix world (answer request world).2 := by
  have still : Apart bucketPrefix world world :=
    (Untouched.refl world).apart
  cases request with
  | put key body => exact reads.elim
  | putIfAbsent key body => exact reads.elim
  | delete key => exact reads.elim
  | get key =>
      simp only [answer]
      split <;> exact ⟨holds, still⟩
  | head key =>
      simp only [answer]
      split <;> exact ⟨holds, still⟩
  | list start => exact ⟨holds, still⟩
  | nowUtc => exact ⟨holds, still⟩
  | newUuid => exact Apart.draw holds

/-! ## What a listing shows -/

theorem mem_visibleMetas
    (holds : Holds bucketPrefix refName world)
    {key : Text} :
    (∃ entry ∈ visibleMetas bucketPrefix refName hidden world,
        entry.key = key) ↔
      ∃ sha,
        Stored bucketPrefix refName world sha ∧
          key = bundleKey bucketPrefix refName sha ∧ key ∉ hidden := by
  unfold visibleMetas
  simp only [List.mem_filter, Bool.not_eq_true', List.contains_eq_mem,
    decide_eq_false_iff_not]
  constructor
  · rintro ⟨entry, ⟨⟨listed, candidate⟩, shown⟩, rfl⟩
    rcases World.mem_listing.1 listed with ⟨begins, object, found, -⟩
    have body : world.body? entry.key = some object.body := by
      simp [World.body?, found]
    rcases holds.sound.placed _ _ body with ⟨slot, key, -⟩
    rw [key, isBundleCandidate_slot] at candidate
    have named :
        ∃ other sha, slot = .ref other (.bundle sha) := by
      cases slot with
      | ref other entry =>
          cases entry with
          | bundle sha => exact ⟨other, sha, rfl⟩
          | _ => cases candidate
      | _ => cases candidate
    rcases named with ⟨other, sha, rfl⟩
    have present :
        (world.slot? bucketPrefix (.ref other (.bundle sha))).isSome := by
      rw [World.slot?, ← key, body]
      rfl
    rw [key, refListingPrefix_prefix_iff] at begins
    have same : other = refName :=
      begins.resolve_right (holds.own other sha present)
    subst same
    exact ⟨sha, present, by rw [key, bundleKey_eq], shown⟩
  · rintro ⟨sha, present, rfl, shown⟩
    have listed :
        ∃ entry ∈ world.listing (refListingPrefix bucketPrefix refName),
          entry.key = bundleKey bucketPrefix refName sha := by
      apply World.exists_mem_listing.2
      rw [bundleKey_eq]
      constructor
      · exact refListingPrefix_prefix_iff.2 (Or.inl rfl)
      · simpa [Stored, World.slot?, World.body?] using present
    rcases listed with ⟨entry, member, key⟩
    refine ⟨entry, ⟨⟨member, ?_⟩, by rwa [key]⟩, key⟩
    rw [key, bundleKey_eq, isBundleCandidate_slot]
    rfl

/-- A bundle that is listed alone is hidden by no tombstone. -/
theorem Accounted.not_tombstoned
    (holds : Holds bucketPrefix refName world)
    (accounted : Accounted bucketPrefix refName hidden world)
    (single :
      (visibleMetas bucketPrefix refName hidden world).length ≤ 1)
    {sha : Sha40}
    (stored : Stored bucketPrefix refName world sha)
    (shown : bundleKey bucketPrefix refName sha ∉ hidden) :
    ¬ world.Tombstoned bucketPrefix refName sha := by
  intro superseded
  rcases accounted.replaced sha stored superseded shown with
    ⟨other, different, kept, unhidden⟩
  rcases (mem_visibleMetas holds).2 ⟨sha, stored, rfl, shown⟩ with
    ⟨first, firstMember, firstKey⟩
  rcases (mem_visibleMetas holds).2 ⟨other, kept, rfl, unhidden⟩ with
    ⟨second, secondMember, secondKey⟩
  have same : first = second := by
    cases listed : visibleMetas bucketPrefix refName hidden world with
    | nil => simp [listed] at firstMember
    | cons entry rest =>
        rw [listed, List.length_cons] at single
        have alone : rest = [] :=
          List.eq_nil_of_length_eq_zero (by omega)
        simp only [listed, alone, List.mem_singleton] at firstMember
        simp only [listed, alone, List.mem_singleton] at secondMember
        rw [firstMember, secondMember]
  rw [same, secondKey, bundleKey_eq, bundleKey_eq, Slot.key_inj] at firstKey
  cases firstKey
  exact different rfl

/-- What a push finds is what is visible, if it is one bundle at most. -/
theorem Accounted.visible_eq
    (holds : Holds bucketPrefix refName world)
    (accounted : Accounted bucketPrefix refName hidden world)
    (single :
      (visibleMetas bucketPrefix refName hidden world).length ≤ 1) :
    visible bucketPrefix refName world =
      observed
        ((visibleMetas bucketPrefix refName hidden world).head?.map
          ObjectMeta.key) := by
  ext key
  have listed :
      (∃ entry ∈ visibleMetas bucketPrefix refName hidden world,
          entry.key = key) ↔
        (visibleMetas bucketPrefix refName hidden world).head?.map
            ObjectMeta.key = some key := by
    cases found : visibleMetas bucketPrefix refName hidden world with
    | nil => simp
    | cons entry rest =>
        rw [found, List.length_cons] at single
        have alone : rest = [] :=
          List.eq_nil_of_length_eq_zero (by omega)
        simp [alone]
  simp only [visible, observed, Set.mem_ofPred_eq]
  rw [← listed, mem_visibleMetas holds]
  constructor
  · rintro ⟨sha, ⟨stored, shown⟩, rfl⟩
    exact
      ⟨sha, stored, rfl, fun member => shown (accounted.named sha member)⟩
  · rintro ⟨sha, stored, rfl, shown⟩
    exact
      ⟨sha,
        ⟨stored, accounted.not_tombstoned holds single stored shown⟩,
        rfl⟩

/-- A push whose observation is out of date is refused. -/
theorem not_accepts
    {state : PushReadyState}
    (named : state.remoteRef = refName)
    (holds : Holds bucketPrefix refName world)
    (accounted :
      Accounted bucketPrefix refName state.hiddenBundles world)
    (stale :
      visible bucketPrefix refName world ≠ observed state.preExisting) :
    ¬ Accepts bucketPrefix state world := by
  rintro ⟨-, single, same⟩
  subst named
  apply stale
  rw [same]
  exact accounted.visible_eq holds single

/-! ## The terms clients work under -/

/-- Between the calls of a preparation the lock may pass around. -/
def discipline
    (bucketPrefix : Option Text)
    (refName : RefName)
    (ι : Type) : Discipline ι Command Call World where
  invariant := Holds bucketPrefix refName
  met := fun _ _ => FreshUpload bucketPrefix refName
  freeRely := fun _ => Evolves bucketPrefix refName
  heldRely := fun _ => Untouched
  freeStep := fun _ _ => Untouched
  heldStep := fun _ _ => Evolves bucketPrefix refName
  freeRely_refl := fun _ => .refl
  freeRely_trans := fun _ _ _ _ first second => first.trans second
  heldRely_refl := fun _ => .refl
  heldRely_trans := fun _ _ _ _ first second => first.trans second
  free_of_freeStep := fun _ _ _ _ _ _ step => step.apart.evolves
  held_of_freeStep := fun _ _ _ _ _ _ step => step
  free_of_heldStep := fun _ _ _ _ _ _ step => step

/--
The bundle a push has observed is the one it ran its ancestor check
against.
-/
def Checked (repo : LocalRepo) (state : PushReadyState) : Prop :=
  preExistingAncestry repo
      (state.preExisting.bind parseRemoteShaFromKey) state.localSha =
    .ok state.preExistingWasAncestor

/-- What a client that waits for the lock carries. -/
def Ready
    (bucketPrefix : Option Text)
    (refName : RefName)
    (command : Command) : Task → World → Prop
  | .push state, world =>
      state.remoteRef = refName ∧ Checked command.repo state ∧
        Accounted bucketPrefix refName state.hiddenBundles world
  | .delete, _ => True

/-- The contract of a preparation. -/
def Free
    (bucketPrefix : Option Text)
    (refName : RefName) : Contract Call World where
  rely := Evolves bucketPrefix refName
  invariant := Holds bucketPrefix refName
  met := FreshUpload bucketPrefix refName
  guarantee := Untouched
  rely_refl := .refl
  rely_trans := fun _ _ _ first second => first.trans second

/-- The contract of the work under the lock. -/
def Held
    (bucketPrefix : Option Text)
    (refName : RefName) : Contract Call World where
  rely := Untouched
  invariant := Holds bucketPrefix refName
  met := FreshUpload bucketPrefix refName
  guarantee := Evolves bucketPrefix refName
  rely_refl := .refl
  rely_trans := fun _ _ _ first second => first.trans second

/-! ## The preparation -/

/-- All tombstones there are have been read. -/
theorem accounted_hiddenKeys (world : World) :
    Accounted bucketPrefix refName (hiddenKeys bucketPrefix world)
      world where
  named := fun _ member => bundleKey_mem_hiddenKeys.1 member
  replaced := fun _ _ superseded shown =>
    absurd (bundleKey_mem_hiddenKeys.2 superseded) shown

/-- A listed tombstone reads the same later, and nothing else is one. -/
theorem tombstonedKey_later
    (holds : Holds bucketPrefix refName world)
    (later_holds : Holds bucketPrefix refName later)
    (evolves : Evolves bucketPrefix refName world later)
    {key : Text}
    (present : (world.body? key).isSome) :
    (later.body? key).bind (tombstonedKey bucketPrefix) =
      (world.body? key).bind (tombstonedKey bucketPrefix) := by
  rcases Option.isSome_iff_exists.1 present with ⟨body, found⟩
  rcases holds.sound.placed key body found with ⟨slot, rfl, accepts⟩
  have foreign
      {body : Body}
      (accepts : slot.Accepts body)
      (aside : ∀ runId, slot ≠ .baselineTombstone runId) :
      tombstonedKey bucketPrefix body = none := by
    rw [Option.eq_none_iff_forall_ne_some]
    intro hiddenKey named
    rcases tombstonedKey_eq_some.1 named with ⟨record, -, rfl, -⟩
    cases slot with
    | ref other entry => cases entry <;> simp [Slot.Accepts] at accepts
    | baselineTombstone runId => exact aside runId rfl
    | _ => simp [Slot.Accepts] at accepts
  by_cases tombstone : ∃ runId, slot = .baselineTombstone runId
  · rcases tombstone with ⟨runId, rfl⟩
    have kept := evolves.kept runId body found
    unfold World.slot? at kept
    rw [kept, found]
  · have aside (runId : Component) : slot ≠ .baselineTombstone runId :=
      fun same => tombstone ⟨runId, same⟩
    rw [found, Option.bind_some, foreign accepts aside]
    cases now : later.body? (slot.key bucketPrefix) with
    | none => rfl
    | some other =>
        rcases later_holds.sound.placed _ other now with
          ⟨otherSlot, key, otherAccepts⟩
        rw [Slot.key_inj] at key
        subst key
        exact foreign otherAccepts aside

/-- What has been read of the listed tombstones, and what is left. -/
structure Reading
    (bucketPrefix : Option Text)
    (refName : RefName)
    (listed : World)
    (keys : List Text)
    (remaining : List ObjectMeta)
    (world : World) : Prop where
  evolves : Evolves bucketPrefix refName listed world
  present : ∀ entry ∈ remaining, (listed.body? entry.key).isSome
  read :
    remaining.foldl (hideStep bucketPrefix listed) keys =
      hiddenKeys bucketPrefix listed

theorem Reading.meanwhile
    {listed : World}
    {keys : List Text}
    {remaining : List ObjectMeta}
    (reading :
      Reading bucketPrefix refName listed keys remaining world)
    (evolves : Evolves bucketPrefix refName world later) :
    Reading bucketPrefix refName listed keys remaining later :=
  { reading with evolves := reading.evolves.trans evolves }

/-- One entry is done with, whether or not it named a bundle. -/
theorem Reading.next
    {listed : World}
    {keys : List Text}
    {entry : ObjectMeta}
    {remaining : List ObjectMeta}
    (reading :
      Reading bucketPrefix refName listed keys (entry :: remaining) world) :
    Reading bucketPrefix refName listed
      (hideStep bucketPrefix listed keys entry) remaining world where
  evolves := reading.evolves
  present := fun other member =>
    reading.present other (List.mem_cons_of_mem _ member)
  read := reading.read

/-- The hidden keys are accounted for, whatever happens while reading. -/
theorem safe_tombstonedBundleKeys (world : World) :
    Safe (Free bucketPrefix refName) answer
      (whenOk fun hidden later =>
        Accounted bucketPrefix refName hidden later)
      (tombstonedBundleKeys bucketPrefix) world := by
  intro listed _ holds _
  refine ⟨⟨holds, .refl listed⟩, ?_⟩
  have start :
      Reading bucketPrefix refName listed []
        (listed.listing (gcListingPrefix (prefixText bucketPrefix)))
        listed := by
    refine ⟨.refl listed, ?_, rfl⟩
    intro entry member
    rcases World.mem_listing.1 member with ⟨-, object, found, -⟩
    simp [World.body?, found]
  apply
    (safe_foldEach (Reading bucketPrefix refName listed)
      (fun _ _ _ _ changed reading => reading.meanwhile changed)
      ?_ start).weaken
  · intro outcome later _ reading
    cases outcome with
    | error error => trivial
    | ok keys =>
        have read : keys = hiddenKeys bucketPrefix listed := reading.read
        subst read
        exact reading.evolves.accounted _ (accounted_hiddenKeys listed)
  · intro keys entry remaining state _ reading
    split
    next named =>
        intro read changed now _
        have same :=
          tombstonedKey_later holds now
            (reading.meanwhile changed).evolves
            (reading.present entry (List.mem_cons_self ..))
        have next := (reading.meanwhile changed).next
        rw [hideStep, if_pos named, ← same] at next
        cases found : read.get? entry.key with
        | none =>
            simp only [answer, found]
            simp only [World.body?, found] at next
            exact
              ⟨⟨now, .refl read⟩, fun later changed _ =>
                next.meanwhile changed⟩
        | some object =>
            simp only [answer, found]
            simp only [World.body?, found] at next
            exact
              ⟨⟨now, .refl read⟩, fun later changed _ =>
                next.meanwhile changed⟩
    next foreign =>
        intro later changed _
        have next := (reading.meanwhile changed).next
        rw [hideStep, if_neg foreign] at next
        exact next

/-- A prepared push carries hidden keys that are accounted for. -/
theorem safe_preparePush
    (command : Command)
    (world : World) :
    Safe (Free bucketPrefix refName) answer
      (whenOk fun outcome later =>
        ∀ state, outcome = .ready state →
          Ready bucketPrefix refName command (.push state) later)
      (preparePush bucketPrefix command.repo command.zip
        ⟨command.force, command.localSpec, refName⟩)
      world := by
  unfold preparePush
  split
  · intro _ _ _ state same
    cases same
  apply (safe_tombstonedBundleKeys world).convert.andThen
  intro hidden read _ accounted
  have listing :
      Safe (Free bucketPrefix refName) answer
        (fun _ later => Accounted bucketPrefix refName hidden later)
        ((bundlesForRef bucketPrefix refName hidden).mapError
          PushError.store)
        read := by
    intro listed changed holds _
    exact
      ⟨⟨holds, .refl listed⟩, fun later more _ =>
        more.accounted hidden (changed.accounted hidden accounted)⟩
  apply listing.keeping
  intro preBundles listed _ accounted
  split
  · intro _ _ _ state same
    cases same
  simp only
  split
  · intro _ _ _ state same
    cases same
  next preExistingSha observed =>
  apply Safe.checkAs
  intro probe probed
  rcases probe with refusal | found
  · cases refusal <;> intro _ _ _ state same <;> cases same
  apply Safe.checkAs
  intro bundle _ later changed _ state same
  cases same
  have git :
      GitReady command.repo command.zip
        ⟨command.force, command.localSpec, refName⟩ preExistingSha
        found :=
    localGitWork_ok.1 probed
  refine ⟨rfl, ?_, changed.accounted hidden accounted⟩
  have sha :
      (preBundles.head?.map ObjectMeta.key).bind parseRemoteShaFromKey =
        preExistingSha := by
    cases prior : preBundles.head?.map ObjectMeta.key with
    | none =>
        rw [prior] at observed
        exact Option.some.inj observed
    | some key =>
        rw [prior] at observed
        rcases Option.map_eq_some_iff.1 observed with ⟨sha, parsed, rfl⟩
        exact parsed
  unfold Checked
  rw [sha]
  exact git.ancestry

theorem safe_prepare (command : Command) (world : World) :
    Safe (Free bucketPrefix refName) answer
      (whenOk fun prepared later =>
        ∀ task, prepared = some task →
          Ready bucketPrefix refName command task later)
      (prepare bucketPrefix refName command) world := by
  apply (safe_preparePush command world).convert.andThen
  intro outcome prepared _ carried
  cases outcome with
  | ready state =>
      intro later changed _ task same
      cases same
      have ready := carried state rfl
      exact ⟨ready.1, ready.2.1, changed.accounted _ ready.2.2⟩
  | delete remoteRef =>
      intro _ _ _ task same
      cases same
      trivial
  | done outcome =>
      cases outcome with
      | ok remoteRef =>
          intro _ _ _ task same
          cases same
      | error remoteRef message => exact fun _ _ _ => trivial

/-! ## The checks under the lock -/

theorem visibleMetas_later
    (untouched : Untouched world later) :
    visibleMetas bucketPrefix refName hidden later =
      visibleMetas bucketPrefix refName hidden world := by
  unfold visibleMetas
  rw [untouched.listing]

section Checks

variable
    {contract : Contract Call World}
    (relies :
      ∀ state later, contract.rely state later → Untouched state later)
    (looks :
      ∀ state, contract.invariant state → contract.guarantee state state)

include relies looks

theorem safe_forceRefused
    (state : PushReadyState)
    (world : World) :
    Safe contract answer
      (fun outcome later =>
        Untouched world later ∧
          outcome = .ok (refused bucketPrefix state world))
      (forceRefused bucketPrefix state) world := by
  unfold forceRefused refused
  split
  next guarded =>
      intro found changed holds _
      have untouched := relies _ _ changed
      rw [guarded, ← untouched.get?]
      simp only [answer]
      cases marker :
          found.get? (protectedMarkerKey bucketPrefix state.remoteRef) with
      | none =>
          exact
            ⟨⟨holds, looks _ holds⟩, fun later more _ =>
              ⟨untouched.trans (relies _ _ more), rfl⟩⟩
      | some object =>
          exact
            ⟨⟨holds, looks _ holds⟩, fun later more _ =>
              ⟨untouched.trans (relies _ _ more), rfl⟩⟩
  next free =>
      intro later changed _
      refine ⟨relies _ _ changed, ?_⟩
      rw [Bool.eq_false_iff.2 free]
      rfl

theorem safe_bundlesForRef
    (world : World) :
    Safe contract answer
      (fun outcome later =>
        Untouched world later ∧
          outcome =
            .ok (visibleMetas bucketPrefix refName hidden world))
      ((bundlesForRef bucketPrefix refName hidden).mapError
        PushError.store)
      world := by
  intro listed changed holds _
  have untouched := relies _ _ changed
  refine ⟨⟨holds, looks _ holds⟩, ?_⟩
  intro later more _
  refine ⟨untouched.trans (relies _ _ more), ?_⟩
  rw [← visibleMetas_later untouched]
  rfl

/-- A push reports an error unless what it finds is what it has observed. -/
theorem safe_performPushUnderLock
    {post : Except PushError PushOutcome → World → Prop}
    {state : PushReadyState}
    {world : World}
    (refuses :
      ∀ message later,
        contract.invariant later → Untouched world later →
          ¬ Accepts bucketPrefix state world →
            post (.ok (.error state.remoteRef message)) later)
    (commits :
      ∀ later,
        contract.invariant later → Untouched world later →
          Accepts bucketPrefix state world →
            Safe contract answer post
              (commitPush bucketPrefix state state.preExisting) later) :
    Safe contract answer post (performPushUnderLock bucketPrefix state)
      world := by
  unfold performPushUnderLock
  apply (safe_forceRefused relies looks state world).bind
  · rintro answered asked - ⟨untouched, same⟩
    cases same
    split
    next protectedRef =>
        intro later changed holds
        apply refuses _ _ holds (untouched.trans (relies _ _ changed))
        rintro ⟨unprotected, -⟩
        rw [protectedRef] at unprotected
        cases unprotected
    next unprotected =>
    apply (safe_bundlesForRef relies looks asked).bind
    · rintro current listed holds ⟨more, same⟩
      cases same
      rw [visibleMetas_later untouched]
      have sinceLock := untouched.trans more
      split
      next several =>
          intro later changed holds
          apply refuses _ _ holds (sinceLock.trans (relies _ _ changed))
          rintro ⟨-, single, -⟩
          omega
      next single =>
          simp only
          split
          next stale =>
              intro later changed holds
              apply
                refuses _ _ holds (sinceLock.trans (relies _ _ changed))
              exact fun accepts => stale accepts.2.2
          next fresh =>
              rw [← not_not.1 fresh]
              exact
                commits listed holds sinceLock
                  ⟨by simpa using unprotected, by omega,
                    not_not.1 fresh⟩
    · rintro error later - ⟨-, same⟩
      cases same
  · rintro error later - ⟨-, same⟩
    cases same

end Checks

/-! ## The writes under the lock -/

theorem Apart.visible
    {sha : Sha40}
    (apart : Apart bucketPrefix world later)
    (shown : world.Visible bucketPrefix refName sha) :
    later.Visible bucketPrefix refName sha :=
  (apart.bundles.visible_iff refName sha).2 shown

section Writes

variable
    {sha : Sha40}
    {ε : Type}

/-- A write beside the bundles leaves the new bundle visible. -/
theorem safe_putIfAbsent
    (slot : Slot)
    {body : Body}
    (accepts : slot.Accepts body)
    (ordinary : slot.Ordinary)
    (shown : world.Visible bucketPrefix refName sha) :
    Safe (Held bucketPrefix refName) answer
      (fun _ later => later.Visible bucketPrefix refName sha)
      ((Store.putIfAbsent (slot.key bucketPrefix) body).mapError
        PushError.store)
      world := by
  intro written changed holds _
  have still := changed.apart.visible shown
  simp only [answer]
  cases written.get? (slot.key bucketPrefix) with
  | some object =>
      exact
        ⟨⟨holds, .refl written⟩, fun later more _ =>
          more.apart.visible still⟩
  | none =>
      rcases Apart.put holds accepts ordinary with ⟨kept, apart⟩
      exact
        ⟨⟨kept, apart.evolves⟩, fun later more _ =>
          more.apart.visible (apart.visible still)⟩

/-- The tombstone of another bundle is written. -/
theorem safe_writeBaselineTombstoneBestEffort
    {prior : Sha40}
    (different : prior ≠ sha)
    (shown : world.Visible bucketPrefix refName sha) :
    Safe (Held bucketPrefix refName) answer
      (whenOk fun wrote _ => wrote = true)
      (writeBaselineTombstoneBestEffort bucketPrefix refName prior sha :
        Program ε Bool)
      world := by
  have writing :
      Safe (Held bucketPrefix refName) answer
        (fun outcome _ => outcome = .ok ())
        (writeBaselineTombstone bucketPrefix refName prior sha) world := by
    unfold writeBaselineTombstone
    rw [if_neg different]
    intro timed changed holds _
    refine ⟨⟨holds, .refl timed⟩, ?_⟩
    intro named more holds _
    have still := (changed.trans more).apart.visible shown
    rcases Apart.draw holds with ⟨drawing, counted⟩
    refine ⟨⟨drawing, counted.evolves⟩, ?_⟩
    intro written last kept _
    rw [baselineTombstoneKey_eq]
    have unused :
        written.slot? bucketPrefix
            (.baselineTombstone (Platform.uuid named.drawn)) = none := by
      rw [last.slot?]
      exact holds.sound.idsDrawn.unused
    have drawn :
        ∃ count < written.drawn,
          Platform.uuid named.drawn = Platform.uuid count := by
      refine ⟨named.drawn, ?_, rfl⟩
      rw [last.2]
      exact Nat.lt_succ_self _
    have stillShown := last.apart.visible (counted.visible still)
    rcases
        Evolves.supersede kept drawn unused different stillShown rfl with
      ⟨after, evolves⟩
    exact ⟨⟨after, evolves⟩, fun _ _ _ => rfl⟩
  unfold writeBaselineTombstoneBestEffort
  apply writing.attempt.andThen
  rintro outcome written - rfl
  intro _ _ _
  exact decide_eq_true different

end Writes

/-- The prior bundle is the one found, and it is another one. -/
theorem exists_prior
    {prior : Text}
    {sha : Sha40}
    (holds : Holds bucketPrefix refName world)
    (found :
      (visibleMetas bucketPrefix refName hidden world).head?.map
          ObjectMeta.key = some prior)
    (different : prior ≠ bundleKey bucketPrefix refName sha) :
    ∃ priorSha,
      parseRemoteShaFromKey prior = some priorSha ∧ priorSha ≠ sha := by
  rcases Option.map_eq_some_iff.1 found with ⟨entry, first, rfl⟩
  rcases
      (mem_visibleMetas holds).1
        ⟨entry, List.mem_of_mem_head? first, rfl⟩ with
    ⟨priorSha, -, key, -⟩
  refine ⟨priorSha, ?_, ?_⟩
  · rw [key, bundleKey_eq, parseRemoteShaFromKey_slot]
    rfl
  · rintro rfl
    exact different key

theorem safe_supersedePrior
    {state : PushReadyState}
    {locked : World}
    (holds : Holds bucketPrefix state.remoteRef locked)
    (accepts : Accepts bucketPrefix state locked)
    (shown :
      world.Visible bucketPrefix state.remoteRef state.localSha) :
    Safe (Held bucketPrefix state.remoteRef) answer
      (fun _ _ => True)
      (supersedePrior bucketPrefix state state.preExisting :
        Program PushError Unit)
      world := by
  unfold supersedePrior
  cases found : state.preExisting with
  | none => exact fun _ _ _ => trivial
  | some prior =>
      simp only
      split
      next another =>
          have observed := accepts.2.2.symm.trans found
          rcases exists_prior holds observed another with
            ⟨priorSha, parsed, different⟩
          unfold deferPriorBundleViaTombstone
          simp only [parsed]
          apply
            (safe_writeBaselineTombstoneBestEffort different shown).bind
          · rintro wrote written - rfl
            exact fun _ _ _ => trivial
          · exact fun _ _ _ _ => trivial
      next same => exact fun _ _ _ => trivial

theorem safe_uploadArchive
    (state : PushReadyState)
    (world : World) :
    Safe (Held bucketPrefix refName) answer (fun _ _ => True)
      (uploadArchive bucketPrefix state : Program PushError Unit)
      world := by
  unfold uploadArchive
  cases state.zipArtifacts with
  | none => exact fun _ _ _ => trivial
  | some archive =>
      intro written _ holds _
      rw [archiveKey_eq]
      rcases
          Apart.put holds
            (show (Slot.ref state.remoteRef .archive).Accepts
              (.file archive) from ⟨archive, rfl⟩)
            trivial with
        ⟨kept, apart⟩
      exact ⟨⟨kept, apart.evolves⟩, fun _ _ _ => trivial⟩

/-- Every write of a push keeps all hidden keys accounted for. -/
theorem safe_commitPush
    {state : PushReadyState}
    {locked : World}
    (holds : Holds bucketPrefix state.remoteRef locked)
    (accepts : Accepts bucketPrefix state locked)
    (world : World) :
    Safe (Held bucketPrefix state.remoteRef) answer (fun _ _ => True)
      (commitPush bucketPrefix state state.preExisting) world := by
  have upload :
      Safe (Held bucketPrefix state.remoteRef) answer
        (fun _ later =>
          later.Visible bucketPrefix state.remoteRef state.localSha)
        ((Store.putPath
          (bundleKey bucketPrefix state.remoteRef state.localSha)
          state.bundle).mapError PushError.store)
        world := by
    intro written _ kept fresh
    have unnamed := fresh state.localSha state.bundle rfl
    rw [bundleKey_eq]
    rcases Evolves.upload kept unnamed rfl with ⟨after, evolves, shown⟩
    exact
      ⟨⟨after, evolves⟩, fun later more _ => more.apart.visible shown⟩
  unfold commitPush
  rw [headKey_eq, formatKey_eq]
  refine upload.bind ?_ fun _ _ _ _ => trivial
  intro _ uploaded _ shown
  refine
    (safe_putIfAbsent .head ⟨_, rfl⟩ trivial shown).bind ?_
      fun _ _ _ _ => trivial
  intro _ headed _ shown
  refine
    (safe_putIfAbsent .format ⟨_, rfl⟩ trivial shown).bind ?_
      fun _ _ _ _ => trivial
  intro _ formatted _ shown
  refine
    (safe_supersedePrior holds accepts shown).bind ?_
      fun _ _ _ _ => trivial
  intro _ superseded _ _
  refine
    (safe_uploadArchive state superseded).bind ?_ fun _ _ _ _ => trivial
  exact fun _ _ _ _ _ _ _ => trivial

/-! ## The deletion -/

/-- At most one bundle is stored. -/
def Sole
    (bucketPrefix : Option Text)
    (refName : RefName)
    (world : World) : Prop :=
  ∀ sha other,
    Stored bucketPrefix refName world sha →
      Stored bucketPrefix refName world other → sha = other

theorem Sole.of_stored
    (sole : Sole bucketPrefix refName world)
    (stored :
      ∀ sha,
        Stored bucketPrefix refName later sha →
          Stored bucketPrefix refName world sha) :
    Sole bucketPrefix refName later :=
  fun sha other first second =>
    sole sha other (stored sha first) (stored other second)

/-- A deletion sweeps only when one bundle is stored. -/
theorem sole_of_storedBundles
    (single :
      (storedBundles bucketPrefix refName world).length = 1) :
    Sole bucketPrefix refName world := by
  have listed
      {sha : Sha40}
      (stored : Stored bucketPrefix refName world sha) :
      ∃ entry ∈ storedBundles bucketPrefix refName world,
        entry.key = bundleKey bucketPrefix refName sha := by
    have found :
        ∃ entry ∈ world.listing (refListingPrefix bucketPrefix refName),
          entry.key = bundleKey bucketPrefix refName sha := by
      apply World.exists_mem_listing.2
      rw [bundleKey_eq]
      constructor
      · exact refListingPrefix_prefix_iff.2 (Or.inl rfl)
      · simpa [Stored, World.slot?, World.body?] using stored
    rcases found with ⟨entry, member, key⟩
    refine ⟨entry, List.mem_filter.2 ⟨member, ?_⟩, key⟩
    rw [key, bundleKey_eq, isBundleCandidate_slot]
    rfl
  intro sha other first second
  rcases List.length_eq_one_iff.1 single with ⟨only, entries⟩
  rcases listed first with ⟨left, leftMember, leftKey⟩
  rcases listed second with ⟨right, rightMember, rightKey⟩
  rw [entries, List.mem_singleton] at leftMember rightMember
  rw [leftMember, ← rightMember, rightKey, bundleKey_eq, bundleKey_eq,
    Slot.key_inj] at leftKey
  cases leftKey
  rfl

/-- What a sweep calls: deletions below the reference, and one look. -/
def Sweeps
    (bucketPrefix : Option Text)
    (refName : RefName) : Call → Prop
  | .delete key => refListingPrefix bucketPrefix refName <+: key
  | request => request.Reads

/-- A sweep of a sole bundle keeps all hidden keys accounted for. -/
theorem safe_sweeping
    {ε α : Type}
    {program : Program ε α}
    (issues :
      Issues Call.Credible (Sweeps bucketPrefix refName) program)
    (sole : Sole bucketPrefix refName world) :
    Safe (Held bucketPrefix refName) answer (fun _ _ => True) program
      world := by
  have stable
      (state later : World)
      (untouched : Untouched state later)
      (sole : Sole bucketPrefix refName state) :
      Sole bucketPrefix refName later := by
    apply sole.of_stored
    intro sha stored
    unfold Stored at stored ⊢
    rwa [untouched.slot?] at stored
  suffices kept :
      Safe (Held bucketPrefix refName) answer
        (fun _ later => Sole bucketPrefix refName later) program world
      from kept.weaken fun _ _ _ _ => trivial
  apply issues.safe credible_answer _ stable sole
  intro request state allowed holds _ sole
  by_cases deletes : ∃ key, request = .delete key
  · rcases deletes with ⟨key, rfl⟩
    simp only [answer]
    cases found : state.get? key with
    | none => exact ⟨⟨holds, .refl state⟩, sole⟩
    | some object =>
        have body : state.body? key = some object.body := by
          simp [World.body?, found]
        rcases holds.sound.placed key _ body with ⟨slot, rfl, -⟩
        have aside (runId : Component) :
            slot ≠ .baselineTombstone runId := by
          rintro rfl
          exact refListingPrefix_prefix_iff.1 allowed
        refine
          ⟨⟨holds.remove _, Evolves.remove holds aside sole⟩, ?_⟩
        apply sole.of_stored
        intro sha stored
        unfold Stored at stored ⊢
        rw [slot?_remove] at stored
        split at stored
        · cases stored
        · exact stored
  · have reads : request.Reads := by
      cases request with
      | delete key => exact absurd ⟨key, rfl⟩ deletes
      | _ => exact allowed
    rcases Apart.read reads holds with ⟨kept, apart⟩
    exact
      ⟨⟨kept, apart.evolves⟩,
        sole.of_stored fun sha => (apart.bundles refName sha).1.1⟩

/-- Deleting what is listed while one bundle is stored. -/
theorem safe_deleteRemoteRefUnderLock (world : World) :
    Safe (Held bucketPrefix refName) answer (fun _ _ => True)
      (deleteRemoteRefUnderLock bucketPrefix refName) world := by
  intro listed _ holds _
  refine ⟨⟨holds, .refl listed⟩, ?_⟩
  have counted :
      ((deletable bucketPrefix refName listed).filter
          fun entry => isBundleCandidate entry.key) =
        storedBundles bucketPrefix refName listed :=
    deletable_bundles refName listed
  unfold deletable at counted
  simp only [answer, Prog.ofExcept, Prog.mapError, Prog.bind]
  split
  · exact fun _ _ _ => trivial
  split
  · exact fun _ _ _ => trivial
  next single =>
      rw [counted] at single
      apply safe_sweeping _ (sole_of_storedBundles single)
      apply Issues.bind
      · apply Issues.mapError
        apply issues_forEach
        intro entry member
        apply issues_deleteIdempotent
        exact (World.mem_listing.1 (List.mem_filter.1 member).1).1
      · intro _
        apply Issues.bind
        · apply issues_verifyNoOrphanProtectedAfterDelete
          intro request reads
          cases request with
          | delete key => exact reads.elim
          | _ => exact reads
        · intro _
          trivial
  · exact fun _ _ _ => trivial

/-! ## Runs -/

section Runs

variable {ι : Type}

theorem safe_report
    {contract : Contract Call World}
    (outcome : PushOutcome)
    (world : World) :
    Safe contract answer (fun _ _ => True) (report outcome) world := by
  cases outcome with
  | ok refName => exact fun _ _ _ => trivial
  | error refName message => exact fun _ _ _ => trivial

theorem safe_work
    {command : Command}
    {task : Task}
    (holds : Holds bucketPrefix refName world)
    (ready : Ready bucketPrefix refName command task world) :
    Safe (Held bucketPrefix refName) answer (fun _ _ => True)
      (work bucketPrefix refName task) world := by
  cases task with
  | push state =>
      rcases ready with ⟨rfl, -, -⟩
      have pushing :
          Safe (Held bucketPrefix state.remoteRef) answer
            (fun _ _ => True)
            ((performPushUnderLock bucketPrefix state).mapError
              Failure.failed)
            world := by
        apply Safe.mapError
        apply safe_performPushUnderLock
        · exact fun _ _ changed => changed
        · exact fun state _ => .refl state
        · exact fun _ _ _ _ _ => trivial
        · exact fun later _ _ accepts =>
            safe_commitPush holds accepts later
      exact
        pushing.bind (fun outcome later _ _ => safe_report outcome later)
          fun _ _ _ _ => trivial
  | delete =>
      have deleting :
          Safe (Held bucketPrefix refName) answer (fun _ _ => True)
            ((deleteRemoteRefUnderLock bucketPrefix refName).mapError
              Failure.failed)
            world :=
        Safe.mapError (safe_deleteRemoteRefUnderLock world)
      exact
        deleting.bind (fun outcome later _ _ => safe_report outcome later)
          fun _ _ _ _ => trivial

omit [Platform] in
theorem untouched_wait (world : World) (duration : Int) :
    Untouched world (world.wait duration) :=
  ⟨rfl, rfl⟩

theorem follows :
    (clients bucketPrefix refName ι).Follows
      (discipline bucketPrefix refName ι)
      (fun _ => Ready bucketPrefix refName) where
  ready_stable := by
    intro client command task state later changed ready
    cases task with
    | push pushing =>
        exact ⟨ready.1, ready.2.1, changed.accounted _ ready.2.2⟩
    | delete => trivial
  begin := fun _ state holds =>
    ⟨holds, fun _ _ => ⟨.refl state, .refl state⟩⟩
  elapse := fun duration state holds =>
    have untouched := untouched_wait state duration
    ⟨untouched.holds holds, fun _ =>
      ⟨untouched.apart.evolves, untouched⟩⟩
  prepare := fun _ command state _ => safe_prepare command state
  work := fun _ _ _ _ holds ready => safe_work holds ready

/-- The contract of a section that is to leave the bucket alone. -/
def Silent (locked : World) : Contract Call World where
  rely := Untouched
  invariant := Untouched locked
  met := fun _ _ => True
  guarantee := Untouched
  rely_refl := .refl
  rely_trans := fun _ _ _ first second => first.trans second

/-- A push whose observation is out of date only looks, and is refused. -/
theorem safe_work_stale
    {state : PushReadyState}
    (rejects : ¬ Accepts bucketPrefix state world) :
    Safe (Silent world) answer
      (fun outcome _ =>
        ∃ message,
          outcome = .error (.refused state.remoteRef message))
      (work bucketPrefix refName (.push state)) world := by
  have refusing :
      Safe (Silent world) answer
        (fun outcome _ =>
          ∃ message, outcome = .ok (.error state.remoteRef message))
        (performPushUnderLock bucketPrefix state) world := by
    apply safe_performPushUnderLock
    · exact fun _ _ changed => changed
    · exact fun state _ => .refl state
    · exact fun message _ _ _ _ => ⟨message, rfl⟩
    · exact fun _ _ _ accepts => absurd accepts rejects
  have converted :
      Safe (Silent world) answer
        (fun outcome _ =>
          ∃ message, outcome = .ok (.error state.remoteRef message))
        ((performPushUnderLock bucketPrefix state).mapError
          Failure.failed)
        world := by
    apply Safe.mapError
    apply refusing.weaken
    rintro outcome later - ⟨message, rfl⟩
    exact ⟨message, rfl⟩
  apply converted.bind
  · rintro outcome later - ⟨message, same⟩
    cases same
    exact fun _ _ _ => ⟨message, rfl⟩
  · rintro error later - ⟨message, same⟩
    cases same

variable [DecidableEq ι]

/--
While no push uploads a bundle that a tombstone names: a push observes one
bundle at most and runs its ancestor check against it, and if something else
is visible when it takes the lock, it writes nothing and reports an error.
-/
theorem stale_refused
    {start : World}
    (holds : Holds bucketPrefix refName start)
    {pool taken later : Pool ι Command Call Reply Failure Task World}
    {client : ι}
    {command : Command}
    {state : PushReadyState}
    (reached :
      (clients bucketPrefix refName ι).Reaches
        (Pool.Meets fun _ _ => FreshUpload bucketPrefix refName)
        (.quiet start) pool)
    (waiting : pool.phase client = .waiting command (.push state))
    (locked :
      (clients bucketPrefix refName ι).Step pool (.lock client) taken)
    (within :
      (clients bucketPrefix refName ι).Reaches
        (fun pool action =>
          pool.Meets (fun _ _ => FreshUpload bucketPrefix refName)
              action ∧
            action.Continues client)
        taken later) :
    Checked command.repo state ∧
      (visible bucketPrefix refName pool.state ≠
          observed state.preExisting →
        later.state.bucket = pool.state.bucket ∧
          ∃ program,
            later.phase client = .holding command program ∧
              program ≠ .done () ∧
                ∀ failure, program = .fail failure →
                  ∃ message, failure = .refused refName message) := by
  have ok :
      pool.Ok (clients bucketPrefix refName ι)
        (discipline bucketPrefix refName ι)
        (fun _ => Ready bucketPrefix refName) :=
    reached.ok follows (fun _ _ meets => meets) (Pool.ok_quiet holds)
  have ready := ok.clients client
  rw [waiting] at ready
  rcases ready with ⟨rfl, checked, accounted⟩
  refine ⟨checked, fun stale => ?_⟩
  have rejects := not_accepts rfl ok.invariant accounted stale
  have takenOk :=
    ok.step follows (show pool.Meets _ (.lock client) from trivial) locked
  have relies
      (first second : World)
      (changed :
        (discipline bucketPrefix state.remoteRef ι).heldRely client first
          second) :
      (Silent pool.state).rely first second :=
    changed
  cases locked with
  | @lock client operation task waits free =>
      rw [waiting] at waits
      cases waits
      have holding :
          (pool.move client pool.state (some client)
              (.holding command
                (work bucketPrefix state.remoteRef
                  (.push state)))).phase client =
            .holding command
              (work bucketPrefix state.remoteRef (.push state)) := by
        simp [Pool.move]
      rcases
          System.Reaches.within follows relies
            (fun _ _ changed same => same.trans changed)
            (fun _ _ => trivial)
            (fun _ _ allowed => allowed.1)
            (fun _ _ allowed => allowed.2)
            takenOk holding (safe_work_stale rejects) (.refl _)
            within with
        ⟨-, program, holding, safe, untouched⟩
      refine ⟨untouched.1, program, holding, ?_, ?_⟩
      · rintro rfl
        rcases safe _ (.refl _) untouched with ⟨message, same⟩
        cases same
      · rintro failure rfl
        rcases safe _ (.refl _) untouched with ⟨message, same⟩
        cases same
        exact ⟨message, rfl⟩

end Runs

/-- The key an upload of a file names. -/
def uploadKey? : Call → Option Text
  | .put key (.file _) => some key
  | _ => none

theorem freshUpload_iff {request : Call} :
    FreshUpload bucketPrefix refName request world ↔
      ∀ key ∈ uploadKey? request, ∀ sha ∈ parseRemoteShaFromKey key,
        key = bundleKey bucketPrefix refName sha →
          key ∉ hiddenKeys bucketPrefix world := by
  constructor
  · intro fresh key upload sha _ same member
    have put :
        ∃ content, request = .put key (.file content) := by
      unfold uploadKey? at upload
      split at upload
      next target content =>
          cases Option.some.inj upload
          exact ⟨content, rfl⟩
      next => cases upload
    rcases put with ⟨content, rfl⟩
    subst same
    exact fresh sha content rfl (bundleKey_mem_hiddenKeys.1 member)
  · rintro fresh sha content rfl superseded
    refine
      fresh (bundleKey bucketPrefix refName sha) rfl sha ?_ rfl
        (bundleKey_mem_hiddenKeys.2 superseded)
    rw [bundleKey_eq, parseRemoteShaFromKey_slot]
    rfl

instance (request : Call) (world : World) :
    Decidable (FreshUpload bucketPrefix refName request world) :=
  decidable_of_iff _ freshUpload_iff.symm

end Guard

/-! ## Two schedules -/

section Schedules

attribute [local instance] Platform.simple

/-- A push of one commit of the linear history. -/
def pushOf (force : Bool) (localSpec : Text) : Command :=
  ⟨.linear, false, force, localSpec⟩

/-- A client prepares its push. -/
def prepares
    (client : Nat)
    (command : Command)
    (looks : Nat) : List (Action Nat Command) :=
  .start client command :: Action.calls client looks ++ [.settle client]

/-- A client that waits does its work. -/
def works (client writes : Nat) : List (Action Nat Command) :=
  .lock client :: Action.calls client writes ++ [.settle client]

/--
One client pushes `c`, goes back to `b` and pushes `c` again; the other has
prepared a push of `d` on top of `b` in between.
-/
def pushedBack : List (Action Nat Command) :=
  prepares 0 (pushOf false ['c']) 2 ++ works 0 4 ++
    prepares 0 (pushOf true ['b']) 2 ++ works 0 8 ++
    prepares 1 (pushOf false ['d']) 3 ++
    prepares 0 (pushOf false ['c']) 3 ++ works 0 7

/-- A push of `d` is prepared on top of `c`, which `e` then supersedes. -/
def pushedAhead : List (Action Nat Command) :=
  prepares 0 (pushOf false ['c']) 2 ++ works 0 4 ++
    prepares 1 (pushOf false ['d']) 2 ++
    prepares 0 (pushOf false ['e']) 2 ++ works 0 7

/-- Nothing is asked of the calls. -/
abbrev Whatever
    (pool : Pool Nat Command Call Reply Failure Task World) :
    Action Nat Command → Prop :=
  pool.Meets fun _ _ _ _ => True

/-- No bundle is uploaded that a tombstone names. -/
abbrev Fresh
    (pool : Pool Nat Command Call Reply Failure Task World) :
    Action Nat Command → Prop :=
  pool.Meets fun _ _ => FreshUpload none .main

/-- A client that waits to push has observed a tombstoned bundle. -/
def staleObservation
    (pool : Pool Nat Command Call Reply Failure Task World)
    (client : Nat) : Option (Command × PushReadyState) :=
  match (pool.phase client).waiting? with
  | some (command, .push state) =>
      if ∃ key ∈ state.preExisting,
          ∃ sha ∈ parseRemoteShaFromKey key,
            key = bundleKey none .main sha ∧
              key ∈ hiddenKeys none pool.state then
        some (command, state)
      else none
  | _ => none

theorem staleObservation_eq_some
    {pool : Pool Nat Command Call Reply Failure Task World}
    {client : Nat}
    {command : Command}
    {state : PushReadyState}
    (found : staleObservation pool client = some (command, state)) :
    pool.phase client = .waiting command (.push state) ∧
      visible none .main pool.state ≠ observed state.preExisting := by
  unfold staleObservation at found
  split at found
  next waiting =>
      split at found
      next tombstoned =>
          cases found
          refine ⟨Phase.waiting?_eq_some.1 waiting, fun same => ?_⟩
          rcases tombstoned with ⟨key, prior, sha, -, rfl, concealed⟩
          have shown :
              bundleKey none .main sha ∈ visible none .main pool.state := by
            rw [same]
            exact prior
          rcases shown with ⟨other, seen, key⟩
          rw [bundleKey_eq, bundleKey_eq, Slot.key_inj] at key
          cases key
          exact seen.2 (bundleKey_mem_hiddenKeys.1 concealed)
      next => cases found
  next => cases found

/-- Whether a client has done its work without an error. -/
def committed
    (pool : Pool Nat Command Call Reply Failure Task World)
    (client : Nat) : Bool :=
  match pool.phase client with
  | .holding _ (.done _) => true
  | _ => false

/-- A bundle that is uploaded again deceives a push that has waited. -/
theorem not_stale_refused :
    ¬ ∀ pool taken later client command state,
      (clients none .main Nat).Reaches Whatever (.quiet (.empty 0))
          pool →
        pool.phase client = .waiting command (.push state) →
        (clients none .main Nat).Step pool (.lock client) taken →
        (clients none .main Nat).Reaches
            (fun pool action =>
              Whatever pool action ∧ action.Continues client)
            taken later →
          visible none .main pool.state ≠ observed state.preExisting →
            later.state.bucket = pool.state.bucket ∧
              ∃ program,
                later.phase client = .holding command program ∧
                  program ≠ .done () ∧
                    ∀ failure, program = .fail failure →
                      ∃ message,
                        failure = .refused .main message := by
  intro always
  have executed :
      (((clients none .main Nat).schedule? Whatever pushedBack
          (.quiet (.empty 0))).bind fun pool =>
        (staleObservation pool 1).bind fun found =>
          ((clients none .main Nat).step? pool (.lock 1)).bind fun taken =>
            ((clients none .main Nat).schedule?
                (fun pool action =>
                  Whatever pool action ∧ action.Continues 1)
                (Action.calls 1 7) taken).map fun later =>
              committed later 1) =
        some true := by
    decide +kernel
  rcases Option.bind_eq_some_iff.1 executed with ⟨pool, reached, known⟩
  rcases Option.bind_eq_some_iff.1 known with
    ⟨⟨command, state⟩, found, known⟩
  rcases Option.bind_eq_some_iff.1 known with ⟨taken, locked, known⟩
  rcases Option.map_eq_some_iff.1 known with ⟨later, worked, wrote⟩
  rcases staleObservation_eq_some found with ⟨waiting, stale⟩
  rcases
      always pool taken later 1 command state
        (System.Reaches.refl.schedule reached) waiting
        (System.step_of_step? locked)
        (System.Reaches.refl.schedule worked) stale with
    ⟨-, program, holding, unfinished, -⟩
  unfold committed at wrote
  rw [holding] at wrote
  cases program with
  | done value => exact unfinished rfl
  | fail failure => cases wrote
  | call request next => cases wrote

theorem stale_refused_pushedAhead :
    ∃ pool taken later command state,
      (clients none .main Nat).schedule? Fresh pushedAhead
          (.quiet (.empty 0)) = some pool ∧
        pool.phase 1 = .waiting command (.push state) ∧
        (clients none .main Nat).step? pool (.lock 1) = some taken ∧
        (clients none .main Nat).schedule?
            (fun pool action =>
              Fresh pool action ∧ action.Continues 1)
            (Action.calls 1 1) taken = some later ∧
        visible none .main pool.state ≠ observed state.preExisting ∧
          later.state.bucket = pool.state.bucket ∧
            ∃ program,
              later.phase 1 = .holding command program ∧
                program ≠ .done () ∧
                  ∀ failure, program = .fail failure →
                    ∃ message, failure = .refused .main message := by
  have executed :
      (((clients none .main Nat).schedule? Fresh pushedAhead
          (.quiet (.empty 0))).bind fun pool =>
        (staleObservation pool 1).bind fun found =>
          ((clients none .main Nat).step? pool (.lock 1)).bind fun taken =>
            ((clients none .main Nat).schedule?
                (fun pool action =>
                  Fresh pool action ∧ action.Continues 1)
                (Action.calls 1 1) taken).map fun later =>
              committed later 1) =
        some false := by
    decide +kernel
  have holds : Holds none .main (.empty 0) := by
    refine ⟨World.sound_empty 0, ?_⟩
    intro other sha present
    simp [World.slot?] at present
  rcases Option.bind_eq_some_iff.1 executed with ⟨pool, reached, known⟩
  rcases Option.bind_eq_some_iff.1 known with
    ⟨⟨command, state⟩, found, known⟩
  rcases Option.bind_eq_some_iff.1 known with ⟨taken, locked, known⟩
  rcases Option.map_eq_some_iff.1 known with ⟨later, worked, -⟩
  rcases staleObservation_eq_some found with ⟨waiting, stale⟩
  have refused :=
    stale_refused holds (System.Reaches.refl.schedule reached) waiting
      (System.step_of_step? locked) (System.Reaches.refl.schedule worked)
  exact
    ⟨pool, taken, later, command, state, reached, waiting, locked, worked,
      stale, refused.2 stale⟩

end Schedules

end GitRemoteObjectStore.StaleRemote
