import GitRemoteObjectStore.Interference
import GitRemoteObjectStore.Tombstones

/-!
# What a sweep removes

A sweep only removes.  A bundle goes when a baseline tombstone names it and
it is not the baseline of the reference's chain.  A baseline tombstone goes
after its bundle, or when its bundle is the baseline of the chain again.
-/

namespace GitRemoteObjectStore.SweepEffects

open CallProgram Prog

section Removal

variable [Platform] (bucketPrefix : Option Text)

/-- A bundle that a sweep may remove. -/
def Collectable (world : World) (refName : RefName) (sha : Sha40) : Prop :=
  world.Tombstoned bucketPrefix refName sha ∧
    ∀ chain, world.chain? bucketPrefix refName = some chain →
      chain.fullAt ≠ sha

/-- A bundle whose tombstone has done its work. -/
def Spent (world : World) (refName : RefName) (sha : Sha40) : Prop :=
  world.slot? bucketPrefix (.ref refName (.bundle sha)) = none ∨
    ∃ chain, world.chain? bucketPrefix refName = some chain ∧
      chain.fullAt = sha

/-- A bucket, and what a sweep leaves of it. -/
structure Collected (world next : World) : Prop where
  drawn : world.drawn ≤ next.drawn
  removed :
    ∀ key, next.get? key = world.get? key ∨ next.get? key = none
  chains :
    ∀ refName,
      next.chain? bucketPrefix refName = world.chain? bucketPrefix refName
  bundles :
    ∀ refName sha,
      (world.slot? bucketPrefix (.ref refName (.bundle sha))).isSome →
        next.slot? bucketPrefix (.ref refName (.bundle sha)) = none →
          Collectable bucketPrefix world refName sha
  tombstones :
    world.Placed bucketPrefix →
      ∀ refName sha,
        world.Tombstoned bucketPrefix refName sha →
          ¬ next.Tombstoned bucketPrefix refName sha →
            Spent bucketPrefix next refName sha

end Removal

variable
    [Platform]
    {bucketPrefix : Option Text}
    {world next last : World}
    {refName : RefName}
    {sha : Sha40}
    {key : Text}

theorem Collected.refl (world : World) :
    Collected bucketPrefix world world where
  drawn := le_rfl
  removed := fun _ => Or.inl rfl
  chains := fun _ => rfl
  bundles := by
    intro refName sha present absent
    rw [absent] at present
    cases present
  tombstones := fun _ _ _ hidden shown => absurd hidden shown

theorem Collected.of_eq
    (collected : Collected bucketPrefix world next)
    (same : last = next) :
    Collected bucketPrefix world last :=
  same ▸ collected

namespace Collected

variable (collected : Collected bucketPrefix world next)

include collected

theorem body?
    {body : Body}
    (present : next.body? key = some body) :
    world.body? key = some body := by
  rcases collected.removed key with same | gone
  · rwa [World.body?, ← same]
  · rw [World.body?, gone] at present
    cases present

theorem slot?
    {slot : Slot}
    (present : (next.slot? bucketPrefix slot).isSome) :
    (world.slot? bucketPrefix slot).isSome := by
  rcases Option.isSome_iff_exists.1 present with ⟨body, stored⟩
  exact Option.isSome_iff_exists.2 ⟨body, collected.body? stored⟩

theorem tombstoned
    (hidden : next.Tombstoned bucketPrefix refName sha) :
    world.Tombstoned bucketPrefix refName sha := by
  rcases hidden with ⟨key, record, named, stored, parts⟩
  exact ⟨key, record, named, collected.body? stored, parts⟩

theorem placed (placed : world.Placed bucketPrefix) :
    next.Placed bucketPrefix :=
  fun key body present => placed key body (collected.body? present)

theorem sound (sound : world.Sound bucketPrefix) :
    next.Sound bucketPrefix where
  placed := collected.placed sound.placed
  idsDrawn := by
    intro runId present
    rcases sound.idsDrawn runId (collected.slot? present) with
      ⟨count, before, same⟩
    exact ⟨count, Nat.lt_of_lt_of_le before collected.drawn, same⟩

theorem spent
    (known : Spent bucketPrefix world refName sha) :
    Spent bucketPrefix next refName sha := by
  rcases known with gone | ⟨chain, stored, same⟩
  · left
    rw [← Option.not_isSome_iff_eq_none] at gone ⊢
    exact fun present => gone (collected.slot? present)
  · exact Or.inr ⟨chain, by rw [collected.chains, stored], same⟩

theorem collectable
    (known : Collectable bucketPrefix next refName sha) :
    Collectable bucketPrefix world refName sha := by
  refine ⟨collected.tombstoned known.1, ?_⟩
  rw [← collected.chains]
  exact known.2

theorem trans (more : Collected bucketPrefix next last) :
    Collected bucketPrefix world last where
  drawn := collected.drawn.trans more.drawn
  removed := by
    intro key
    rcases more.removed key with same | gone
    · rw [same]
      exact collected.removed key
    · exact Or.inr gone
  chains := fun refName =>
    (more.chains refName).trans (collected.chains refName)
  bundles := by
    intro refName sha present absent
    cases found :
        next.slot? bucketPrefix (.ref refName (.bundle sha)) with
    | none => exact collected.bundles refName sha present found
    | some body =>
        apply collected.collectable
        exact more.bundles refName sha (by rw [found]; rfl) absent
  tombstones := by
    intro placed refName sha hidden shown
    by_cases between : next.Tombstoned bucketPrefix refName sha
    · exact
        more.tombstones (collected.placed placed) refName sha between shown
    · exact
        more.spent
          (collected.tombstones placed refName sha hidden between)

end Collected

/-! ## One object -/

/-- The removal of an object that is no chain. -/
theorem Collected.remove
    (chain :
      ∀ refName, (world.chain? bucketPrefix refName).isSome →
        chainKey bucketPrefix refName ≠ key)
    (bundle :
      ∀ refName sha, bundleKey bucketPrefix refName sha = key →
        Collectable bucketPrefix world refName sha)
    (tombstone :
      world.Placed bucketPrefix →
        ∀ record refName,
          isBaselineTombstoneKey key (prefixText bucketPrefix) = true →
            world.body? key = some (.baselineTombstone record) →
              record.refName = refName.text →
                Spent bucketPrefix world refName record.sha) :
    Collected bucketPrefix world (world.remove key) := by
  have kept {other : Text} (different : other ≠ key) :
      (world.remove key).body? other = world.body? other := by
    rw [World.body?_remove, if_neg different]
  have chains (refName : RefName) :
      (world.remove key).chain? bucketPrefix refName =
        world.chain? bucketPrefix refName := by
    by_cases same : chainKey bucketPrefix refName = key
    · have absent : world.chain? bucketPrefix refName = none := by
        by_contra present
        exact
          chain refName (Option.isSome_iff_ne_none.2 present) same
      rw [absent, World.chain?, World.body?_remove, if_pos same]
    · rw [World.chain?, World.chain?, kept same]
  have removed (other : Text) :
      (world.remove key).get? other = world.get? other ∨
        (world.remove key).get? other = none := by
    rw [World.get?_remove]
    split
    · exact Or.inr rfl
    · exact Or.inl rfl
  refine ⟨le_rfl, removed, chains, ?_, ?_⟩
  · intro refName sha present absent
    by_cases same : bundleKey bucketPrefix refName sha = key
    · exact bundle refName sha same
    · rw [World.slot?, ← bundleKey_eq, kept same, bundleKey_eq,
        ← World.slot?] at absent
      rw [absent] at present
      cases present
  · rintro placed refName sha ⟨other, record, named, stored, version, own,
      rfl⟩ shown
    have same : other = key := by
      by_contra different
      exact shown
        ⟨other, record, named, by rw [kept different, stored], version,
          own, rfl⟩
    subst same
    rcases tombstone placed record refName named stored own with
      gone | ⟨chain, found, baseline⟩
    · left
      rw [World.slot?, World.body?_remove]
      split
      · rfl
      · exact gone
    · exact Or.inr ⟨chain, by rw [chains, found], baseline⟩

/-! ## One tombstone -/

theorem bundleKey_ne_json
    (json : lit ".json" <:+ key) :
    bundleKey bucketPrefix refName sha ≠ key := by
  rintro rfl
  rw [bundleKey_eq, Slot.key, Slot.path, Slot.name, Entry.name] at json
  have reversed := List.reverse_prefix.2 json
  simp [lit_eq, Slot.directory] at reversed

/-- A tombstone is in a slot of its own. -/
theorem baseline_slot
    (placed : world.Placed bucketPrefix)
    {slot : Slot}
    {record : BaselineTombstone}
    (stored :
      world.body? (slot.key bucketPrefix) =
        some (.baselineTombstone record)) :
    ∃ runId, slot = .baselineTombstone runId := by
  rcases placed _ _ stored with ⟨other, same, accepts⟩
  rw [Slot.key_inj] at same
  subst same
  cases slot with
  | baselineTombstone runId => exact ⟨runId, rfl⟩
  | ref refName entry => cases entry <;> simp [Slot.Accepts] at accepts
  | _ => simp [Slot.Accepts] at accepts

/-- A pack, or its index, is nobody's bundle. -/
theorem Collected.removePack
    (slot : Slot)
    (pack : slot = .pack sha ∨ slot = .idx sha) :
    Collected bucketPrefix world
      (world.remove (slot.key bucketPrefix)) := by
  apply Collected.remove
  · intro refName _ same
    rw [chainKey_eq, Slot.key_inj] at same
    rcases pack with rfl | rfl <;> cases same
  · intro refName bundle same
    rw [bundleKey_eq, Slot.key_inj] at same
    rcases pack with rfl | rfl <;> cases same
  · intro placed record refName _ stored _
    rcases baseline_slot placed stored with ⟨runId, same⟩
    rw [same] at pack
    rcases pack with pack | pack <;> cases pack

theorem run_deleteCounted (key : Text) (world : World) :
    ∃ count,
      run answer (deleteCounted key) world =
        (.ok count, world.remove key) := by
  simp only [deleteCounted, Store.delete, attempt_call, call_bind,
    run_call, answer]
  cases found : world.get? key with
  | some object => exact ⟨1, rfl⟩
  | none =>
      rw [world.remove_of_absent key found]
      exact ⟨0, rfl⟩

/-- The calls that apply the pack tombstone at a key. -/
def Purges (bucketPrefix : Option Text) (key : Text) : Call → Prop
  | .delete other =>
      other = key ∨
        ∃ slot : Slot,
          other = slot.key bucketPrefix ∧
            ∃ sha, slot = .pack sha ∨ slot = .idx sha
  | request => request.Reads

/-- An object that is neither a chain nor a bundle nor what hides one. -/
structure Plain (key : Text) (world : World) : Prop where
  json : lit ".json" <:+ key
  chain : ∀ manifest, world.body? key ≠ some (.chain manifest)
  baseline : ∀ record, world.body? key ≠ some (.baselineTombstone record)

theorem Plain.remove (plain : Plain key world) :
    Collected bucketPrefix world (world.remove key) := by
  apply Collected.remove
  · rintro refName present rfl
    rcases Option.isSome_iff_exists.1 present with ⟨manifest, found⟩
    exact
      plain.chain manifest ((World.chain?_eq_some_iff _ _).1 found).1
  · intro refName sha same
    exact absurd same (bundleKey_ne_json plain.json)
  · intro _ record _ _ stored _
    exact absurd stored (plain.baseline record)

theorem Plain.later
    (plain : Plain key world)
    (collected : Collected bucketPrefix world next) :
    Plain key next where
  json := plain.json
  chain := fun manifest stored =>
    plain.chain manifest (collected.body? stored)
  baseline := fun record stored =>
    plain.baseline record (collected.body? stored)

/-- A call that changes no object removes none. -/
theorem collected_reads
    {request : Call}
    (reads : request.Reads)
    (world : World) :
    Collected bucketPrefix world (answer request world).2 := by
  cases request with
  | list start => exact .refl world
  | get key =>
      simp only [answer]
      split <;> exact .refl world
  | head key =>
      simp only [answer]
      split <;> exact .refl world
  | nowUtc => exact .refl world
  | newUuid =>
      exact
        { Collected.refl world with drawn := Nat.le_succ world.drawn }
  | put key body => exact reads.elim
  | putIfAbsent key body => exact reads.elim
  | delete key => exact reads.elim

theorem collected_purge
    {request : Call}
    (purges : Purges bucketPrefix key request)
    (plain : Plain key world) :
    Collected bucketPrefix world (answer request world).2 := by
  cases request with
  | delete other =>
      simp only [answer]
      cases found : world.get? other with
      | none => exact .refl world
      | some object =>
          rcases purges with rfl | ⟨slot, rfl, sha, pack⟩
          · exact plain.remove
          · exact .removePack slot pack
  | _ =>
      apply collected_reads
      exact purges

/-- Applying a pack tombstone removes nothing that is a bundle. -/
theorem collected_sweepOneTombstone
    (json : lit ".json" <:+ key)
    (scan : Sha40 → Arrivals.Completion)
    (opts : SweepOpts)
    (world : World) :
    Collected bucketPrefix world
      (run answer
        (sweepOneTombstone scan (prefixText bucketPrefix) key opts)
        world).2 := by
  by_cases marked : ∃ record, world.body? key = some (.tombstone record)
  · rcases marked with ⟨record, stored⟩
    have plain : Plain key world := by
      refine ⟨json, ?_, ?_⟩
      · intro manifest chained
        rw [stored] at chained
        cases chained
      · intro record hidden
        rw [stored] at hidden
        cases hidden
    have issues :
        Issues Call.Credible (Purges bucketPrefix key)
          (sweepOneTombstone scan (prefixText bucketPrefix) key opts) := by
      apply issues_sweepOneTombstone
      · intro request reads
        cases request <;> first | exact reads | exact reads.elim
      · intro sha
        constructor
        · exact
            Or.inr
              ⟨.pack sha, by rw [← packKey_eq]; simp [packKey, join_eq],
                sha, Or.inl rfl⟩
        · exact
            Or.inr
              ⟨.idx sha,
                by rw [← packIdxKey_eq]; simp [packIdxKey, join_eq],
                sha, Or.inr rfl⟩
      · exact Or.inl rfl
    have kept
        (request : Call)
        (state : World)
        (purges : Purges bucketPrefix key request)
        (collected : Collected bucketPrefix world state) :
        Collected bucketPrefix world (answer request state).2 :=
      collected.trans (collected_purge purges (plain.later collected))
    exact issues.run credible_answer kept (.refl world)
  · have unchanged :
        (run answer
          (sweepOneTombstone scan (prefixText bucketPrefix) key opts)
          world).2 = world := by
      unfold sweepOneTombstone
      cases found : world.get? key with
      | none =>
          rw [run_bind, run_attempt, Store.run_getBytes_absent found]
          rfl
      | some object =>
          rw [run_bind, run_attempt, Store.run_getBytes_present found]
          cases parsed : Tombstone.fromJsonBytes object.body with
          | error error => simp [parsed]
          | ok record =>
              exfalso
              apply marked
              refine ⟨record, ?_⟩
              rw [World.body?, found, Option.map_some,
                (Tombstone.fromJsonBytes_ok.1 parsed).1]
    rw [unchanged]
    exact .refl world

theorem run_graceCheck
    (opts : SweepOpts)
    (markedAt : Option Int)
    (world : World) :
    ∃ decision,
      run answer (graceCheck opts markedAt) world = (decision, world) := by
  unfold graceCheck checkGraceWindow
  split
  · exact ⟨_, rfl⟩
  · cases markedAt with
    | none => exact ⟨_, rfl⟩
    | some markedAt => exact ⟨_, rfl⟩

/-- What the application of a baseline tombstone may leave. -/
structure Applied
    (bucketPrefix : Option Text)
    (key : Text)
    (world next : World)
    (record : BaselineTombstone)
    (refName : RefName) : Prop where
  stored : world.body? key = some (.baselineTombstone record)
  version : record.v = tombstoneSchemaVersion
  named : record.refName = refName.text
  result :
    (∃ chain, world.chain? bucketPrefix refName = some chain ∧
        chain.fullAt = record.sha ∧ next = world.remove key) ∨
      ((∀ chain, world.chain? bucketPrefix refName = some chain →
          chain.fullAt ≠ record.sha) ∧
        next =
          (world.remove
            (bundleKey bucketPrefix refName record.sha)).remove key)

theorem chainKey_prefixOpt (refName : RefName) :
    chainKey (prefixOpt (prefixText bucketPrefix)) refName =
      chainKey bucketPrefix refName := by
  simp [chainKey_eq, Slot.key]

theorem bundleKey_prefixOpt (refName : RefName) (sha : Sha40) :
    bundleKey (prefixOpt (prefixText bucketPrefix)) refName sha =
      bundleKey bucketPrefix refName sha := by
  simp [bundleKey_eq, Slot.key]

theorem run_sweepOneBaselineTombstone
    (key : Text)
    (opts : SweepOpts)
    (world : World) :
    (run answer
        (sweepOneBaselineTombstone (prefixText bucketPrefix) key opts)
        world).2 = world ∨
      ∃ record refName,
        Applied bucketPrefix key world
          (run answer
            (sweepOneBaselineTombstone (prefixText bucketPrefix) key opts)
            world).2
          record refName := by
  unfold sweepOneBaselineTombstone
  cases found : world.get? key with
  | none =>
      left
      rw [run_bind, run_attempt, Store.run_getBytes_absent found]
      rfl
  | some object =>
  rw [run_bind, run_attempt, Store.run_getBytes_present found]
  cases parsed : BaselineTombstone.fromJsonBytes object.body with
  | error error =>
      left
      simp [parsed]
  | ok record =>
  rcases BaselineTombstone.fromJsonBytes_ok.1 parsed with ⟨body, version⟩
  have stored : world.body? key = some (.baselineTombstone record) := by
    rw [World.body?, found, Option.map_some, body]
  simp only [parsed, ofExcept_ok, done_bind, run_bind]
  rcases run_graceCheck opts record.markedAt world with
    ⟨decision, checked⟩
  rw [checked]
  cases decision with
  | error error => exact Or.inl rfl
  | ok decision =>
  cases decision with
  | within => exact Or.inl rfl
  | past =>
  cases named : RefName.new record.refName with
  | none => exact Or.inl rfl
  | some refName =>
  simp only [run_bind, run_loadChain, chainKey_prefixOpt]
  cases loaded :
      loadedChain (world.body? (chainKey bucketPrefix refName)) with
  | error error => exact Or.inl rfl
  | ok current =>
  have chained : world.chain? bucketPrefix refName = current :=
    loadedChain_eq_ok _ _ _ loaded
  right
  refine
    ⟨record, refName, stored, version, (RefName.text_of_new named).symm, ?_⟩
  by_cases baseline : baselineIs current record.sha = true
  · left
    cases current with
    | none => cases baseline
    | some chain =>
        have same : chain.fullAt = record.sha := by
          simpa [baselineIs] using baseline
        refine ⟨chain, chained, same, ?_⟩
        rcases run_deleteCounted key world with ⟨count, deleted⟩
        simp only [baseline, if_true, run_bind, deleted]
        rfl
  · right
    refine ⟨?_, ?_⟩
    · rintro chain present same
      rw [chained] at present
      subst present
      exact baseline (by simp [baselineIs, same])
    · rcases
          run_deleteCounted (bundleKey bucketPrefix refName record.sha)
            world with
        ⟨first, bundled⟩
      rcases
          run_deleteCounted key
            (world.remove
              (bundleKey bucketPrefix refName record.sha)) with
        ⟨second, deleted⟩
      simp only [baseline, Bool.false_eq_true, if_false, run_bind,
        run_loadChain, chainKey_prefixOpt, loaded, bundleKey_prefixOpt,
        bundled, deleted]
      rfl

/-- Applying a baseline tombstone. -/
theorem Applied.collected
    {record : BaselineTombstone}
    (json : lit ".json" <:+ key)
    (marked :
      isBaselineTombstoneKey key (prefixText bucketPrefix) = true)
    (applied :
      Applied bucketPrefix key world next record refName) :
    Collected bucketPrefix world next := by
  rcases applied with ⟨stored, version, named, result⟩
  have chain
      (state : World)
      (kept : state.body? key = world.body? key)
      (other : RefName)
      (present : (state.chain? bucketPrefix other).isSome) :
      chainKey bucketPrefix other ≠ key := by
    rintro rfl
    rcases Option.isSome_iff_exists.1 present with ⟨manifest, found⟩
    have chained := ((World.chain?_eq_some_iff _ _).1 found).1
    rw [kept, stored] at chained
    cases chained
  have own
      (other : BaselineTombstone)
      (otherRef : RefName)
      (found : world.body? key = some (.baselineTombstone other))
      (same : other.refName = otherRef.text) :
      otherRef = refName ∧ other.sha = record.sha := by
    rw [stored] at found
    cases found
    exact ⟨RefName.ext (same.symm.trans named), rfl⟩
  rcases result with ⟨manifest, present, baseline, rfl⟩ | ⟨free, rfl⟩
  · apply Collected.remove
    · exact chain world rfl
    · intro other sha same
      exact absurd same (bundleKey_ne_json json)
    · intro _ other otherRef _ found same
      rcases own other otherRef found same with ⟨rfl, bundle⟩
      exact Or.inr ⟨manifest, present, baseline.trans bundle.symm⟩
  · have different :
        key ≠ bundleKey bucketPrefix refName record.sha :=
      (bundleKey_ne_json json).symm
    have kept :
        (world.remove
            (bundleKey bucketPrefix refName record.sha)).body? key =
          world.body? key := by
      rw [World.body?_remove, if_neg different]
    have bundle :
        Collected bucketPrefix world
          (world.remove (bundleKey bucketPrefix refName record.sha)) := by
      apply Collected.remove
      · intro other _ same
        rw [chainKey_eq, bundleKey_eq, Slot.key_inj] at same
        cases same
      · intro other sha same
        rw [bundleKey_eq, bundleKey_eq, Slot.key_inj] at same
        cases same
        exact ⟨⟨key, record, marked, stored, version, named, rfl⟩, free⟩
      · intro placed other otherRef _ found _
        rw [bundleKey_eq] at found
        rcases baseline_slot placed found with ⟨runId, same⟩
        cases same
    apply bundle.trans
    apply Collected.remove
    · exact chain _ kept
    · intro other sha same
      exact absurd same (bundleKey_ne_json json)
    · intro _ other otherRef _ found same
      rw [kept] at found
      rcases own other otherRef found same with ⟨rfl, sameSha⟩
      left
      rw [sameSha, World.slot?, ← bundleKey_eq, World.body?_remove,
        if_pos rfl]

/-! ## The whole sweep -/

theorem collected_sweepEntry
    (scans : Scans)
    (opts : SweepOpts)
    (outcome : SweepOutcome)
    (entry : ObjectMeta)
    (world : World) :
    ∃ counted,
      (run answer
          (sweepEntry scans (prefixText bucketPrefix) opts outcome entry)
          world).1 = .ok counted ∧
        Collected bucketPrefix world
          (run answer
            (sweepEntry scans (prefixText bucketPrefix) opts outcome entry)
            world).2 := by
  unfold sweepEntry
  split
  · exact ⟨_, rfl, .refl world⟩
  next json =>
      rw [not_not] at json
      split
      · rw [run_bind, run_attempt]
        exact
          ⟨_, rfl,
            collected_sweepOneTombstone json (scans entry.key) opts world⟩
      split
      next marked =>
          rw [run_bind, run_attempt]
          refine ⟨_, rfl, ?_⟩
          rcases run_sweepOneBaselineTombstone entry.key opts world with
            same | ⟨record, refName, applied⟩
          · exact (Collected.refl world).of_eq same
          · exact applied.collected json marked
      · exact ⟨_, rfl, .refl world⟩

/-- What a sweep leaves of a bucket. -/
theorem collected_sweep
    (scans : Scans)
    (opts : SweepOpts)
    (world : World) :
    Collected bucketPrefix world
      (run answer (sweep scans (prefixText bucketPrefix) opts) world).2 := by
  unfold sweep
  rw [run_bind, run_mapError, Store.run_list]
  refine
    run_foldEach_ending
      (fun _ _ state => Collected bucketPrefix world state)
      (fun _ state => Collected bucketPrefix world state) ?_ ?_
      (.refl world)
  · intro outcome entry rest state collected
    left
    rcases collected_sweepEntry scans opts outcome entry state with
      ⟨counted, reported, more⟩
    exact
      ⟨counted, _, Prod.ext reported rfl, collected.trans more⟩
  · intro outcome state collected
    exact collected

end GitRemoteObjectStore.SweepEffects
