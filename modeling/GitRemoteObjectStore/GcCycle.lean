import GitRemoteObjectStore.MarkPrecision
import GitRemoteObjectStore.SweepConfluence
import GitRemoteObjectStore.SweepEffects

/-!
# One round of the collector

A mark, the grace window and a sweep, on a bucket that may hold anything
besides what the engines write.  Left alone, a round removes every pack and
index that no chain names, every bundle that a tombstone hides and that is
not the baseline of its chain, and every tombstone; any other object stays as
it is.
-/

namespace GitRemoteObjectStore.GcCycle

open CallProgram Prog Packchain Separated SweepConfluence SweepEffects
open Arrivals (Completion)

section Rounds

variable [Platform] (bucketPrefix : Option Text) (opts : SweepOpts)

/-- The bucket after a mark, a wait and a sweep. -/
def round
    (completion : Completion)
    (scans : Scans)
    (duration : Int)
    (world : World) : World :=
  (run answer (sweep scans (prefixText bucketPrefix) opts)
    ((run answer (mark completion (prefixText bucketPrefix) false)
      world).2.wait duration)).2

/-- A key at which a sweep looks for a pack tombstone. -/
def MarksPacks (key : Text) : Prop :=
  lit ".json" <:+ key ∧ isTombstoneKey key (prefixText bucketPrefix) = true

/-- A key at which a sweep looks for a baseline tombstone. -/
def MarksBaseline (key : Text) : Prop :=
  lit ".json" <:+ key ∧
    isBaselineTombstoneKey key (prefixText bucketPrefix) = true

/-- A pack that some `chain.json` under `refs/` names. -/
def Referenced (world : World) (sha : Sha40) : Prop :=
  ∃ key chain,
    join bucketPrefix (lit "refs/") <+: key ∧
      isChainJsonKey key = true ∧
      world.body? key = some (.chain chain) ∧
      sha ∈ chain.packShas

/-- A bundle that a tombstone names and that is no baseline of its chain. -/
def Hidden (world : World) (refName : RefName) (sha : Sha40) : Prop :=
  ∃ key record,
    MarksBaseline bucketPrefix key ∧
      world.body? key = some (.baselineTombstone record) ∧
      record.refName = refName.text ∧
      record.sha = sha ∧
      ∀ chain, world.chain? bucketPrefix refName = some chain →
        chain.fullAt ≠ sha

/-- What a round removes. -/
inductive Reclaims (world : World) : Text → Prop where
  | pack {sha : Sha40} :
      ¬ Referenced bucketPrefix world sha →
        Reclaims world (packKey bucketPrefix sha)
  | idx {sha : Sha40} :
      ¬ Referenced bucketPrefix world sha →
        Reclaims world (packIdxKey bucketPrefix sha)
  | bundle {refName : RefName} {sha : Sha40} :
      Hidden bucketPrefix world refName sha →
        Reclaims world (bundleKey bucketPrefix refName sha)
  | tombstone {key : Text} :
      MarksPacks bucketPrefix key → Reclaims world key
  | baselineTombstone {key : Text} :
      MarksBaseline bucketPrefix key → Reclaims world key

/-- Every `chain.json` under `refs/` can be read. -/
def Legible (world : World) : Prop :=
  ∀ key,
    join bucketPrefix (lit "refs/") <+: key →
      isChainJsonKey key = true →
        (world.get? key).isSome → Readable world key

/-- The time at which every tombstone of a bucket may be applied. -/
structure Ripe (clock : Int) (world : World) : Prop where
  packs :
    ∀ key,
      MarksPacks bucketPrefix key →
        (world.get? key).isSome →
          ∃ record,
            world.body? key = some (.tombstone record) ∧
              record.v = tombstoneSchemaVersion ∧
              due opts clock record.markedAt = true
  baselines :
    ∀ key,
      MarksBaseline bucketPrefix key →
        (world.get? key).isSome →
          ∃ record refName chain,
            world.body? key = some (.baselineTombstone record) ∧
              record.v = tombstoneSchemaVersion ∧
              record.refName = refName.text ∧
              loadedChain
                  (world.body? (chainKey bucketPrefix refName)) =
                .ok chain ∧
              due opts clock record.markedAt = true

/-! ## What a mark writes -/

/-- The packs of a bucket, and the packs whose index is there. -/
def packsListed (world : World) : List Sha40 :=
  ((world.listing (join bucketPrefix (lit "packs/"))).filterMap
    fun entry => packShaFromListing entry.key).dedup

/-- What a mark finds that no chain names. -/
def orphans (referenced : List Sha40) (world : World) : List Sha40 :=
  (packsListed bucketPrefix world).filter fun sha =>
    !referenced.contains sha

/-- The slot of the tombstone that a mark writes. -/
def markSlot (world : World) : Slot :=
  .tombstone
    (tombstoneLabel (Platform.uuid world.drawn)
      (Platform.rfc3339 world.clock))

/-- The bucket after a mark. -/
def marked (referenced : List Sha40) (world : World) : World :=
  if orphans bucketPrefix referenced world = [] then
    { world with drawn := world.drawn + 1 }
  else
    ({ world with drawn := world.drawn + 1 } : World).put
      ((markSlot world).key bucketPrefix)
      (.tombstone
        ⟨tombstoneSchemaVersion, (Platform.uuid world.drawn).text,
          some world.clock, orphans bucketPrefix referenced world⟩)

variable {bucketPrefix opts}
variable {world : World} {referenced : List Sha40}

theorem run_mark
    {completion : Completion}
    (read :
      referencedPacks completion bucketPrefix world = .ok referenced) :
    (run answer (mark completion (prefixText bucketPrefix) false)
        world).2 =
      marked bucketPrefix referenced world := by
  have listed :
      run answer (listPackShas (prefixText bucketPrefix)) world =
        (.ok (packsListed bucketPrefix world), world) := by
    unfold listPackShas
    simp only [run_bind, run_mapError, Store.run_list, Except.mapError,
      join_some_prefixText]
    rfl
  have scanned :
      run answer
          (listReferencedPacks completion (prefixText bucketPrefix))
          world =
        (.ok referenced, world) := by
    rw [run_listReferencedPacks, read]
  unfold mark
  rw [run_bind_ok listed, run_bind_ok scanned]
  simp only [run_bind, run_newUuid, run_nowUtc, tombstoneKey_eq,
    Bool.false_eq_true, if_false, List.length_eq_zero_iff]
  unfold marked orphans markSlot
  split
  · rfl
  · rfl

/-! ## The packs the chains name -/

omit [Platform] in
/-- Where the chains are legible, the collector counts what they name. -/
theorem exists_referencedPacks
    (legible : Legible bucketPrefix world)
    (completion : Completion) :
    ∃ referenced,
      referencedPacks completion bucketPrefix world = .ok referenced ∧
        ∀ sha, sha ∈ referenced ↔ Referenced bucketPrefix world sha := by
  have readable :
      ∃ referenced,
        referencedPacks completion bucketPrefix world =
          .ok referenced := by
    rw [referencedPacks_ok_iff]
    intro entry member
    rcases exists_mem_scannedChains.1 ⟨entry, member, rfl⟩ with
      ⟨under, chain, present⟩
    exact legible entry.key under chain present
  rcases readable with ⟨referenced, read⟩
  refine ⟨referenced, read, fun sha => ?_⟩
  rw [mem_referencedPacks_iff read]
  constructor
  · rintro ⟨entry, member, chain, stored, named⟩
    rcases exists_mem_scannedChains.1 ⟨entry, member, rfl⟩ with
      ⟨under, isChain, -⟩
    exact ⟨entry.key, chain, under, isChain, stored, named⟩
  · rintro ⟨key, chain, under, isChain, stored, named⟩
    rcases exists_mem_scannedChains.2
        ⟨under, isChain, World.isSome_of_body? stored⟩ with
      ⟨entry, member, rfl⟩
    exact ⟨entry, member, chain, stored, named⟩

/-! ## What a sweep is ordered to remove -/

omit [Platform] in
/-- No key is that of a pack tombstone and of a baseline tombstone. -/
theorem not_marksBaseline
    {key : Text}
    (marks : MarksPacks bucketPrefix key) :
    ¬ MarksBaseline bucketPrefix key := by
  rintro ⟨-, baseline⟩
  have packs := marks.2
  rw [isTombstoneKey, List.isPrefixOf_iff_prefix, join_eq] at packs
  rw [isBaselineTombstoneKey, List.isPrefixOf_iff_prefix,
    baselineTombstoneListingPrefix, join_eq] at baseline
  have shorter :
      keyRoot (some (prefixText bucketPrefix)) ++ lit "gc/tombstones-" <+:
        keyRoot (some (prefixText bucketPrefix)) ++
          lit "gc/baseline-tomb-" :=
    List.prefix_of_prefix_length_le packs baseline (by simp [lit_eq])
  rw [List.prefix_append_right_inj] at shorter
  revert shorter
  decide +kernel

/-- What a pack tombstone removes. -/
theorem targets_packs
    (legible : Legible bucketPrefix world)
    {key : Text}
    {record : Tombstone}
    (marks : MarksPacks bucketPrefix key)
    (stored : world.body? key = some (.tombstone record))
    (version : record.v = tombstoneSchemaVersion)
    (past : due opts world.clock record.markedAt = true) :
    ∃ list,
      targets bucketPrefix opts world key = some list ∧
        ∀ target,
          target ∈ list ↔
            ∃ sha ∈ record.orphanPacks,
              ¬ Referenced bucketPrefix world sha ∧
                (target = packKey bucketPrefix sha ∨
                  target = packIdxKey bucketPrefix sha) := by
  rcases exists_referencedPacks legible .inOrder with
    ⟨referenced, read, counted⟩
  have parsed :
      Tombstone.fromJsonBytes (.tombstone record) = .ok record :=
    Tombstone.fromJsonBytes_ok.2 ⟨rfl, version⟩
  unfold targets
  rw [if_pos marks.1, if_pos marks.2, stored]
  simp only [Option.bind_some, parsed, Except.toOption, packTargets,
    past, if_true, read]
  refine ⟨_, rfl, fun target => ?_⟩
  simp only [List.mem_flatMap, List.mem_filter, Bool.not_eq_true',
    List.contains_eq_mem, decide_eq_false_iff_not, counted,
    List.mem_pair, and_assoc]

omit [Platform] in
theorem baselineIs_iff {chain : Option ChainManifest} {sha : Sha40} :
    baselineIs chain sha = true ↔
      ∃ manifest, chain = some manifest ∧ manifest.fullAt = sha := by
  unfold baselineIs
  cases chain with
  | none => simp
  | some manifest => simp

/-- What a baseline tombstone removes. -/
theorem targets_baseline
    {key : Text}
    {record : BaselineTombstone}
    {refName : RefName}
    {chain : Option ChainManifest}
    (marks : MarksBaseline bucketPrefix key)
    (stored : world.body? key = some (.baselineTombstone record))
    (version : record.v = tombstoneSchemaVersion)
    (named : record.refName = refName.text)
    (loaded :
      loadedChain (world.body? (chainKey bucketPrefix refName)) =
        .ok chain)
    (past : due opts world.clock record.markedAt = true) :
    ∃ list,
      targets bucketPrefix opts world key = some list ∧
        ∀ target,
          target ∈ list ↔
            (∀ manifest,
                world.chain? bucketPrefix refName = some manifest →
                  manifest.fullAt ≠ record.sha) ∧
              target = bundleKey bucketPrefix refName record.sha := by
  have parsed :
      BaselineTombstone.fromJsonBytes (.baselineTombstone record) =
        .ok record :=
    BaselineTombstone.fromJsonBytes_ok.2 ⟨rfl, version⟩
  have other : ¬ isTombstoneKey key (prefixText bucketPrefix) = true :=
    fun packs => not_marksBaseline ⟨marks.1, packs⟩ marks
  have chained : world.chain? bucketPrefix refName = chain :=
    loadedChain_eq_ok _ _ _ loaded
  unfold targets
  rw [if_pos marks.1, if_neg other, if_pos marks.2, stored]
  simp only [Option.bind_some, parsed, Except.toOption, baselineTargets,
    past, if_true, named, RefName.new_text, loaded, chained]
  cases live : baselineIs chain record.sha with
  | true =>
      rcases baselineIs_iff.1 live with ⟨manifest, rfl, baseline⟩
      refine ⟨[], by simp, fun target => ?_⟩
      simp only [List.not_mem_nil, false_iff]
      exact fun spent => spent.1 manifest rfl baseline
  | false =>
      refine
        ⟨[bundleKey bucketPrefix refName record.sha], by simp,
          fun target => ?_⟩
      rw [List.mem_singleton]
      refine (and_iff_right ?_).symm
      rintro manifest rfl baseline
      rw [baselineIs_iff.2 ⟨manifest, rfl, baseline⟩] at live
      cases live

/-! ## What a sweep removes -/

/-- Some tombstone orders the removal of a pack. -/
def Ordered
    (bucketPrefix : Option Text) (world : World) (sha : Sha40) : Prop :=
  ∃ key record,
    MarksPacks bucketPrefix key ∧
      world.body? key = some (.tombstone record) ∧
      sha ∈ record.orphanPacks

/-- What a sweep removes. -/
inductive Condemned
    (bucketPrefix : Option Text) (world : World) : Text → Prop where
  | pack {sha : Sha40} :
      ¬ Referenced bucketPrefix world sha →
        Ordered bucketPrefix world sha →
          Condemned bucketPrefix world (packKey bucketPrefix sha)
  | idx {sha : Sha40} :
      ¬ Referenced bucketPrefix world sha →
        Ordered bucketPrefix world sha →
          Condemned bucketPrefix world (packIdxKey bucketPrefix sha)
  | bundle {refName : RefName} {sha : Sha40} :
      Hidden bucketPrefix world refName sha →
        Condemned bucketPrefix world (bundleKey bucketPrefix refName sha)
  | tombstone {key : Text} :
      MarksPacks bucketPrefix key → Condemned bucketPrefix world key
  | baselineTombstone {key : Text} :
      MarksBaseline bucketPrefix key → Condemned bucketPrefix world key

section Sweeping

variable
    (legible : Legible bucketPrefix world)
    (ripe : Ripe bucketPrefix opts world.clock world)

include ripe

/-- A baseline tombstone, and what it orders. -/
theorem targets_of_baseline
    {key : Text}
    {record : BaselineTombstone}
    {refName : RefName}
    (marks : MarksBaseline bucketPrefix key)
    (stored : world.body? key = some (.baselineTombstone record))
    (named : record.refName = refName.text) :
    ∃ list,
      targets bucketPrefix opts world key = some list ∧
        ∀ target,
          target ∈ list ↔
            (∀ manifest,
                world.chain? bucketPrefix refName = some manifest →
                  manifest.fullAt ≠ record.sha) ∧
              target = bundleKey bucketPrefix refName record.sha := by
  rcases ripe.baselines key marks (World.isSome_of_body? stored) with
    ⟨other, otherRef, chain, same, version, text, loaded, past⟩
  rw [stored] at same
  cases same
  have own : otherRef = refName := RefName.ext (text.symm.trans named)
  subst own
  exact targets_baseline marks stored version named loaded past

/-- A sweep leaves the chains that it looks up for its tombstones. -/
theorem chainsKept_sweep (scans : Scans) :
    ChainsKept bucketPrefix world
      (run answer (sweep scans (prefixText bucketPrefix) opts)
        world).2 := by
  have collected :
      Collected bucketPrefix world
        (run answer (sweep scans (prefixText bucketPrefix) opts)
          world).2 :=
    collected_sweep scans opts world
  rintro refName ⟨key, record, json, marks, stored, named⟩
  rcases collected.removed (chainKey bucketPrefix refName) with
    same | gone
  · exact same
  rcases ripe.baselines key ⟨json, marks⟩ (World.isSome_of_body? stored) with
    ⟨other, otherRef, chain, same, -, text, loaded, -⟩
  rw [stored] at same
  cases same
  have own : otherRef = refName := RefName.ext (text.symm.trans named)
  subst own
  have lost := collected.chains otherRef
  rw [loadedChain_eq_ok _ _ _ loaded, World.chain?, World.body?,
    gone] at lost
  have absent : chain = none := lost.symm
  rw [gone]
  cases found : world.get? (chainKey bucketPrefix otherRef) with
  | none => rfl
  | some object =>
      rw [World.body?, found, absent] at loaded
      cases parsed : ChainManifest.fromJsonBytes object.body with
      | error error => simp [loadedChain, parsed, Except.map] at loaded
      | ok manifest => simp [loadedChain, parsed, Except.map] at loaded

include legible

/-- What some order names is condemned. -/
theorem condemned_of_doomed
    {key : Text}
    (doomed : (orders bucketPrefix opts world).Doomed key) :
    Condemned bucketPrefix world key := by
  rcases doomed with ⟨order, list, named, same | member⟩
  · subst same
    rcases targets_cases named with ⟨json, -, ⟨marks, -⟩ | ⟨marks, -⟩⟩
    · exact .tombstone ⟨json, marks⟩
    · exact .baselineTombstone ⟨json, marks⟩
  · rcases targets_cases named with
      ⟨json, present, ⟨marks, -⟩ | ⟨marks, -⟩⟩
    · rw [World.body?, Option.isSome_map] at present
      rcases ripe.packs order ⟨json, marks⟩ present with
        ⟨record, stored, version, past⟩
      rcases targets_packs legible ⟨json, marks⟩ stored version past with
        ⟨packs, own, inPacks⟩
      obtain rfl := Option.some.inj (named.symm.trans own)
      rcases (inPacks key).1 member with
        ⟨sha, orphan, unnamed, rfl | rfl⟩
      · exact .pack unnamed ⟨order, record, ⟨json, marks⟩, stored, orphan⟩
      · exact .idx unnamed ⟨order, record, ⟨json, marks⟩, stored, orphan⟩
    · rw [World.body?, Option.isSome_map] at present
      rcases ripe.baselines order ⟨json, marks⟩ present with
        ⟨record, refName, chain, stored, -, text, -, -⟩
      rcases targets_of_baseline ripe ⟨json, marks⟩ stored text with
        ⟨bundles, own, inBundles⟩
      obtain rfl := Option.some.inj (named.symm.trans own)
      rcases (inBundles key).1 member with ⟨spent, rfl⟩
      exact
        .bundle ⟨order, record, ⟨json, marks⟩, stored, text, rfl, spent⟩

/-- What is condemned and present is named by an order. -/
theorem doomed_of_condemned
    {key : Text}
    (present : (world.get? key).isSome)
    (condemned : Condemned bucketPrefix world key) :
    (orders bucketPrefix opts world).Doomed key := by
  have orderedPack
      {sha : Sha40}
      (unnamed : ¬ Referenced bucketPrefix world sha)
      (ordered : Ordered bucketPrefix world sha) :
      ∃ order list,
        targets bucketPrefix opts world order = some list ∧
          packKey bucketPrefix sha ∈ list ∧
          packIdxKey bucketPrefix sha ∈ list := by
    rcases ordered with ⟨order, record, marks, stored, orphan⟩
    rcases ripe.packs order marks (World.isSome_of_body? stored) with
      ⟨other, same, version, past⟩
    rw [stored] at same
    cases same
    rcases targets_packs legible marks stored version past with
      ⟨list, named, inList⟩
    exact
      ⟨order, list, named,
        (inList _).2 ⟨sha, orphan, unnamed, Or.inl rfl⟩,
        (inList _).2 ⟨sha, orphan, unnamed, Or.inr rfl⟩⟩
  cases condemned with
  | pack unnamed ordered =>
      rcases orderedPack unnamed ordered with
        ⟨order, list, named, pack, -⟩
      exact ⟨order, list, named, Or.inr pack⟩
  | idx unnamed ordered =>
      rcases orderedPack unnamed ordered with
        ⟨order, list, named, -, idx⟩
      exact ⟨order, list, named, Or.inr idx⟩
  | bundle hidden =>
      rcases hidden with ⟨order, record, marks, stored, text, rfl, spent⟩
      rcases targets_of_baseline ripe marks stored text with
        ⟨list, named, inList⟩
      exact ⟨order, list, named, Or.inr ((inList _).2 ⟨spent, rfl⟩)⟩
  | tombstone marks =>
      rcases ripe.packs key marks present with
        ⟨record, stored, version, past⟩
      rcases targets_packs legible marks stored version past with
        ⟨list, named, -⟩
      exact ⟨key, list, named, Or.inl rfl⟩
  | baselineTombstone marks =>
      rcases ripe.baselines key marks present with
        ⟨record, refName, chain, stored, -, text, -, -⟩
      rcases targets_of_baseline ripe marks stored text with
        ⟨list, named, -⟩
      exact ⟨key, list, named, Or.inl rfl⟩

/-- A whole sweep carries out every order, and nothing else. -/
theorem get?_sweep (scans : Scans) (key : Text) :
    (Condemned bucketPrefix world key →
        (run answer (sweep scans (prefixText bucketPrefix) opts)
          world).2.get? key = none) ∧
      (¬ Condemned bucketPrefix world key →
        (run answer (sweep scans (prefixText bucketPrefix) opts)
            world).2.get? key =
          world.get? key) := by
  rcases finished_run (chainsKept_sweep ripe scans) underway_start scans
    with ⟨underway, finished⟩
  constructor
  · intro condemned
    by_cases present : (world.get? key).isSome
    · exact
        underway.progress.gone finished
          (doomed_of_condemned legible ripe present condemned)
    · rcases underway.progress.kept key with same | ⟨-, gone⟩
      · rw [same]
        simpa using present
      · exact gone
  · intro spared
    apply underway.progress.eq_of_not_doomed
    exact fun doomed => spared (condemned_of_doomed legible ripe doomed)

end Sweeping

/-! ## What a mark leaves -/

theorem clock_marked (world : World) :
    (marked bucketPrefix referenced world).clock = world.clock := by
  unfold marked
  split <;> rfl

theorem get?_marked
    {key : Text}
    (other : key ≠ (markSlot world).key bucketPrefix) :
    (marked bucketPrefix referenced world).get? key = world.get? key := by
  unfold marked
  split
  · rfl
  · exact World.get?_put_ne _ _ _ other

theorem body?_marked
    {key : Text}
    (other : key ≠ (markSlot world).key bucketPrefix) :
    (marked bucketPrefix referenced world).body? key =
      world.body? key := by
  rw [World.body?, get?_marked other, World.body?]

theorem marksPacks_markSlot (world : World) :
    MarksPacks bucketPrefix ((markSlot world).key bucketPrefix) := by
  constructor
  · rw [markSlot, Slot.key, Slot.path, Slot.directory, Slot.name]
    exact
      ⟨keyRoot bucketPrefix ++
          (lit "gc" ++ '/' ::
            (lit "tombstones-" ++
              (tombstoneLabel (Platform.uuid world.drawn)
                (Platform.rfc3339 world.clock)).text)),
        by simp⟩
  · rw [isTombstoneKey, List.isPrefixOf_iff_prefix, join_eq,
      keyRoot_some_prefixText, markSlot, keyRoot_append_prefix_iff]
    exact
      ⟨(tombstoneLabel (Platform.uuid world.drawn)
          (Platform.rfc3339 world.clock)).text ++ lit ".json", by
        simp [Slot.path, Slot.directory, Slot.name, lit_eq]⟩

theorem key_ne_markSlot
    {slot : Slot}
    (other : ∀ label, slot ≠ .tombstone label)
    (world : World) :
    slot.key bucketPrefix ≠ (markSlot world).key bucketPrefix := by
  rw [ne_eq, Slot.key_inj]
  exact other _

theorem chainKey_ne_markSlot (refName : RefName) (world : World) :
    chainKey bucketPrefix refName ≠
      (markSlot world).key bucketPrefix := by
  rw [chainKey_eq]
  exact key_ne_markSlot (by simp) world

/-- A mark writes no `chain.json`. -/
theorem ne_markSlot_of_chain
    {key : Text}
    (chain : isChainJsonKey key = true) :
    key ≠ (markSlot world).key bucketPrefix := by
  rintro rfl
  rcases eq_chain_of_isChainJsonKey chain with ⟨refName, same⟩
  cases same

theorem ne_markSlot_of_baseline
    {key : Text}
    (marks : MarksBaseline bucketPrefix key) :
    key ≠ (markSlot world).key bucketPrefix := by
  rintro rfl
  exact not_marksBaseline (marksPacks_markSlot world) marks

theorem legible_marked (legible : Legible bucketPrefix world) :
    Legible bucketPrefix (marked bucketPrefix referenced world) := by
  intro key under chain present
  rw [get?_marked (ne_markSlot_of_chain chain)] at present
  unfold Readable
  rw [body?_marked (ne_markSlot_of_chain chain)]
  exact legible key under chain present

theorem referenced_marked {sha : Sha40} :
    Referenced bucketPrefix (marked bucketPrefix referenced world) sha ↔
      Referenced bucketPrefix world sha := by
  unfold Referenced
  constructor
  · rintro ⟨key, chain, under, isChain, stored, named⟩
    rw [body?_marked (ne_markSlot_of_chain isChain)] at stored
    exact ⟨key, chain, under, isChain, stored, named⟩
  · rintro ⟨key, chain, under, isChain, stored, named⟩
    rw [← body?_marked (ne_markSlot_of_chain isChain)] at stored
    exact ⟨key, chain, under, isChain, stored, named⟩

theorem hidden_marked {refName : RefName} {sha : Sha40} :
    Hidden bucketPrefix (marked bucketPrefix referenced world) refName
        sha ↔
      Hidden bucketPrefix world refName sha := by
  have chained :
      (marked bucketPrefix referenced world).chain? bucketPrefix refName =
        world.chain? bucketPrefix refName := by
    unfold World.chain?
    rw [body?_marked (chainKey_ne_markSlot refName world)]
  unfold Hidden
  rw [chained]
  constructor
  · rintro ⟨key, record, marks, stored, parts⟩
    rw [body?_marked (ne_markSlot_of_baseline marks)] at stored
    exact ⟨key, record, marks, stored, parts⟩
  · rintro ⟨key, record, marks, stored, parts⟩
    rw [← body?_marked (ne_markSlot_of_baseline marks)] at stored
    exact ⟨key, record, marks, stored, parts⟩

/-- The tombstone that a mark adds waits like the others. -/
theorem ripe_marked
    {clock : Int}
    (ripe : Ripe bucketPrefix opts clock world)
    (waited : due opts clock (some world.clock) = true) :
    Ripe bucketPrefix opts clock (marked bucketPrefix referenced world)
    where
  packs := by
    intro key marks present
    by_cases own : key = (markSlot world).key bucketPrefix
    · unfold marked at present ⊢
      split
      next nothing =>
          rw [if_pos nothing] at present
          exact ripe.packs key marks present
      next some =>
          rw [World.body?_put, if_pos own]
          exact ⟨_, rfl, rfl, waited⟩
    · rw [get?_marked own] at present
      rw [body?_marked own]
      exact ripe.packs key marks present
  baselines := by
    intro key marks present
    rw [get?_marked (ne_markSlot_of_baseline marks)] at present
    rcases ripe.baselines key marks present with
      ⟨record, refName, chain, stored, version, text, loaded, past⟩
    rw [← body?_marked (ne_markSlot_of_baseline marks)] at stored
    rw [← body?_marked (chainKey_ne_markSlot refName world)] at loaded
    exact ⟨record, refName, chain, stored, version, text, loaded, past⟩

theorem packShaFromListing_pack (sha : Sha40) :
    packShaFromListing (packKey bucketPrefix sha) = some sha := by
  have stem :
      stripSuffix (lit ".pack") (sha.text ++ lit ".pack") =
        some sha.text :=
    stripSuffix_eq_some.2 rfl
  unfold packShaFromListing
  simp only [packKey_eq, lastSegment_key, Slot.name, stem, Option.some_or,
    Sha40.tryNew_text]

theorem packShaFromListing_idx (sha : Sha40) :
    packShaFromListing (packIdxKey bucketPrefix sha) = some sha := by
  have stem :
      stripSuffix (lit ".idx") (sha.text ++ lit ".idx") =
        some sha.text :=
    stripSuffix_eq_some.2 rfl
  have other :
      stripSuffix (lit ".pack") (sha.text ++ lit ".idx") = none := by
    by_contra found
    rcases Option.ne_none_iff_exists'.1 found with ⟨text, stripped⟩
    have last :=
      congrArg List.getLast? (stripSuffix_eq_some.1 stripped)
    simp [lit_eq] at last
  unfold packShaFromListing
  simp only [packIdxKey_eq, lastSegment_key, Slot.name, other, stem,
    Option.none_or, Sha40.tryNew_text]

/-- A mark orders the removal of every pack that no chain names. -/
theorem ordered_marked
    {sha : Sha40}
    (present :
      (world.get? (packKey bucketPrefix sha)).isSome ∨
        (world.get? (packIdxKey bucketPrefix sha)).isSome)
    (absent : sha ∉ referenced) :
    Ordered bucketPrefix (marked bucketPrefix referenced world) sha := by
  have listed
      {key : Text}
      (stored : (world.get? key).isSome)
      (named : packShaFromListing key = some sha)
      (under : join bucketPrefix (lit "packs/") <+: key) :
      sha ∈ packsListed bucketPrefix world := by
    rcases World.exists_mem_listing.2 ⟨under, stored⟩ with
      ⟨entry, member, rfl⟩
    apply List.mem_dedup.2
    exact List.mem_filterMap.2 ⟨entry, member, named⟩
  have member : sha ∈ packsListed bucketPrefix world := by
    rcases present with pack | idx
    · apply listed pack (packShaFromListing_pack sha)
      rw [join_eq, packKey_eq]
      exact ⟨sha.text ++ lit ".pack", by
        simp [Slot.key, Slot.path, Slot.directory, Slot.name, lit_eq]⟩
    · apply listed idx (packShaFromListing_idx sha)
      rw [join_eq, packIdxKey_eq]
      exact ⟨sha.text ++ lit ".idx", by
        simp [Slot.key, Slot.path, Slot.directory, Slot.name, lit_eq]⟩
  have orphan : sha ∈ orphans bucketPrefix referenced world :=
    List.mem_filter.2 ⟨member, by simpa using absent⟩
  refine
    ⟨_,
      ⟨tombstoneSchemaVersion, (Platform.uuid world.drawn).text,
        some world.clock, orphans bucketPrefix referenced world⟩,
      marksPacks_markSlot world, ?_, orphan⟩
  unfold marked
  rw [if_neg (List.ne_nil_of_mem orphan), World.body?_put, if_pos rfl]

/-! ## A whole round -/

/-- What a mark leaves to be removed is what a round removes. -/
theorem reclaims_of_condemned
    {duration : Int}
    {key : Text}
    (condemned :
      Condemned bucketPrefix
        ((marked bucketPrefix referenced world).wait duration) key) :
    Reclaims bucketPrefix world key := by
  cases condemned with
  | pack unnamed ordered =>
      exact .pack fun found => unnamed (referenced_marked.2 found)
  | idx unnamed ordered =>
      exact .idx fun found => unnamed (referenced_marked.2 found)
  | bundle hidden => exact .bundle (hidden_marked.1 hidden)
  | tombstone marks => exact .tombstone marks
  | baselineTombstone marks => exact .baselineTombstone marks

/-- What a round removes is left to be removed, unless it was not there. -/
theorem condemned_of_reclaims
    {duration : Int}
    (counted :
      ∀ sha, sha ∈ referenced ↔ Referenced bucketPrefix world sha)
    {key : Text}
    (reclaims : Reclaims bucketPrefix world key)
    (present :
      (((marked bucketPrefix referenced world).wait duration).get?
        key).isSome) :
    Condemned bucketPrefix
      ((marked bucketPrefix referenced world).wait duration) key := by
  cases reclaims with
  | @pack sha unnamed =>
      have there : (world.get? (packKey bucketPrefix sha)).isSome := by
        rw [← get?_marked]
        · exact present
        · rw [packKey_eq]
          exact key_ne_markSlot (by simp) world
      exact
        .pack (fun found => unnamed (referenced_marked.1 found))
          (ordered_marked (Or.inl there) fun member =>
            unnamed ((counted sha).1 member))
  | @idx sha unnamed =>
      have there : (world.get? (packIdxKey bucketPrefix sha)).isSome := by
        rw [← get?_marked]
        · exact present
        · rw [packIdxKey_eq]
          exact key_ne_markSlot (by simp) world
      exact
        .idx (fun found => unnamed (referenced_marked.1 found))
          (ordered_marked (Or.inr there) fun member =>
            unnamed ((counted sha).1 member))
  | bundle hidden => exact .bundle (hidden_marked.2 hidden)
  | tombstone marks => exact .tombstone marks
  | baselineTombstone marks => exact .baselineTombstone marks

/--
A round that nothing disturbs, every tombstone being due at its end, removes
exactly the packs and indexes that no `chain.json` under `refs/` names, the
hidden bundles that are no chain's baseline, and the tombstones.
-/
theorem round_iff
    {duration : Int}
    (legible : Legible bucketPrefix world)
    (ripe : Ripe bucketPrefix opts (world.clock + duration) world)
    (waited :
      due opts (world.clock + duration) (some world.clock) = true)
    (completion : Completion)
    (scans : Scans)
    (key : Text) :
    (Reclaims bucketPrefix world key →
        (round bucketPrefix opts completion scans duration world).get?
          key = none) ∧
      (¬ Reclaims bucketPrefix world key →
        (round bucketPrefix opts completion scans duration world).get?
            key =
          world.get? key) := by
  rcases exists_referencedPacks legible completion with
    ⟨referenced, read, counted⟩
  let before := (marked bucketPrefix referenced world).wait duration
  have legibleBefore : Legible bucketPrefix before := by
    have stillLegible :
        Legible bucketPrefix (marked bucketPrefix referenced world) :=
      legible_marked legible
    exact stillLegible
  have ripeBefore : Ripe bucketPrefix opts before.clock before := by
    have clock : before.clock = world.clock + duration :=
      congrArg (· + duration) (clock_marked world)
    rw [clock]
    have ripened :
        Ripe bucketPrefix opts (world.clock + duration)
          (marked bucketPrefix referenced world) :=
      ripe_marked ripe waited
    exact ⟨ripened.packs, ripened.baselines⟩
  have swept := get?_sweep legibleBefore ripeBefore scans
  have sweeping :
      round bucketPrefix opts completion scans duration world =
        (run answer (sweep scans (prefixText bucketPrefix) opts)
          before).2 := by
    unfold round
    rw [run_mark read]
  rw [sweeping]
  constructor
  · intro reclaims
    by_cases condemned : Condemned bucketPrefix before key
    · exact (swept key).1 condemned
    rw [(swept key).2 condemned]
    by_contra present
    exact
      condemned
        (condemned_of_reclaims counted reclaims
          (Option.isSome_iff_ne_none.2 present))
  · intro spared
    have other : key ≠ (markSlot world).key bucketPrefix := by
      rintro rfl
      exact spared (.tombstone (marksPacks_markSlot world))
    have unmoved : before.get? key = world.get? key := get?_marked other
    rw [← unmoved]
    apply (swept key).2
    exact fun condemned => spared (reclaims_of_condemned condemned)

end Rounds

/-! ## An untidy bucket -/

/-- A bucket filled with objects, one after the other. -/
def stocked (clock : Int) (stock : List (Text × Body)) : World :=
  stock.foldl (fun world item => world.put item.1 item.2) (.empty clock)

/-- What a filled bucket holds was put there. -/
theorem mem_of_body?_stocked
    {clock : Int}
    {stock : List (Text × Body)}
    {key : Text}
    {body : Body}
    (stored : (stocked clock stock).body? key = some body) :
    (key, body) ∈ stock := by
  unfold stocked at stored
  suffices filling :
      ∀ world : World,
        (stock.foldl (fun world item => world.put item.1 item.2)
            world).body? key = some body →
          world.body? key = some body ∨ (key, body) ∈ stock by
    rcases filling _ stored with empty | found
    · simp at empty
    · exact found
  clear stored
  induction stock with
  | nil => exact fun world => Or.inl
  | cons item rest hypothesis =>
      intro world stored
      rcases hypothesis _ stored with here | later
      · rw [World.body?_put] at here
        split at here
        next same =>
            cases here
            rw [same]
            exact Or.inr List.mem_cons_self
        next different => exact Or.inl here
      · exact Or.inr (List.mem_cons_of_mem _ later)

section Untidy

attribute [local instance] Platform.simple

def orphanSha : Sha40 :=
  digitSha 'a' hex_a

def namedSha : Sha40 :=
  digitSha 'b' hex_b

def supersededSha : Sha40 :=
  digitSha 'c' hex_c

def namedChain : ChainManifest :=
  ⟨1, namedSha, namedSha, [⟨namedSha, none, packKey none namedSha, 0⟩]⟩

/-- The key of a large file. -/
def lfsKey : Text :=
  lit "lfs/0123"

/--
A pack that nothing names, a pack and a baseline that the chain names, a
superseded bundle with its tombstone, an old pack tombstone, and a stored
large file.
-/
def untidyStock : List (Text × Body) :=
  [(packKey none orphanSha, .file []),
    (packIdxKey none orphanSha, .file []),
    (packKey none namedSha, .file []),
    (bundleKey none .main namedSha, .file []),
    (bundleKey none .main supersededSha, .file []),
    (chainKey none .main, .chain namedChain),
    (tombstoneKey [] (Platform.uuid 1) (Platform.rfc3339 0),
      .tombstone ⟨1, (Platform.uuid 1).text, some 0, [namedSha]⟩),
    (baselineTombstoneKey [] (Platform.uuid 2),
      .baselineTombstone ⟨1, some 0, RefName.main.text, supersededSha⟩),
    (lfsKey, .file [7])]

def untidy : World :=
  stocked (48 * hour) untidyStock

theorem chain?_untidy : untidy.chain? none .main = some namedChain := by
  decide +kernel

/-- The bucket has one chain, one pack tombstone and one baseline tombstone. -/
theorem kinds_untidy
    {key : Text}
    (present : (untidy.get? key).isSome) :
    (isChainJsonKey key = true → key = chainKey none .main) ∧
      (isTombstoneKey key [] = true →
        key = tombstoneKey [] (Platform.uuid 1) (Platform.rfc3339 0)) ∧
      (isBaselineTombstoneKey key [] = true →
        key = baselineTombstoneKey [] (Platform.uuid 2)) := by
  have kinds :
      ∀ item ∈ untidyStock,
        (isChainJsonKey item.1 = true → item.1 = chainKey none .main) ∧
          (isTombstoneKey item.1 [] = true →
            item.1 =
              tombstoneKey [] (Platform.uuid 1) (Platform.rfc3339 0)) ∧
          (isBaselineTombstoneKey item.1 [] = true →
            item.1 = baselineTombstoneKey [] (Platform.uuid 2)) := by
    decide +kernel
  rcases Option.isSome_iff_exists.1 present with ⟨object, found⟩
  have stored : untidy.body? key = some object.body := by
    rw [World.body?, found, Option.map_some]
  exact kinds (key, object.body) (mem_of_body?_stocked stored)

theorem tombstones_untidy :
    untidy.body? (tombstoneKey [] (Platform.uuid 1) (Platform.rfc3339 0)) =
        some
          (.tombstone
            ⟨1, (Platform.uuid 1).text, some 0, [namedSha]⟩) ∧
      untidy.body? (baselineTombstoneKey [] (Platform.uuid 2)) =
        some
          (.baselineTombstone
            ⟨1, some 0, RefName.main.text, supersededSha⟩) := by
  simp only [untidy, stocked, untidyStock, List.foldl_cons, List.foldl_nil]
  constructor
  · rw [World.body?_put, if_neg (by decide +kernel), World.body?_put,
      if_neg (by decide +kernel), World.body?_put, if_pos rfl]
  · rw [World.body?_put, if_neg (by decide +kernel), World.body?_put,
      if_pos rfl]

theorem legible_untidy : Legible none untidy := by
  intro key under chain present
  rw [(kinds_untidy present).1 chain]
  refine
    ⟨namedChain, ((World.chain?_eq_some_iff _ _).1 chain?_untidy).1, rfl, ?_⟩
  intro segment named
  rw [namedChain, List.mem_singleton] at named
  rw [named, shaFromPackKey_packKey, Option.isSome_some]

theorem ripe_untidy :
    Ripe none ⟨24, false⟩ (untidy.clock + 25 * hour) untidy := by
  have old :
      due ⟨24, false⟩ (untidy.clock + 25 * hour) (some 0) = true := by
    decide +kernel
  constructor
  case packs =>
      intro key marks present
      rw [(kinds_untidy present).2.1 marks.2]
      exact ⟨_, tombstones_untidy.1, rfl, old⟩
  case baselines =>
      intro key marks present
      rw [(kinds_untidy present).2.2 marks.2]
      exact
        ⟨_, .main, some namedChain, tombstones_untidy.2, rfl, rfl,
          loadedChain_of_chain? _ _ chain?_untidy, old⟩

/-- A pack that the chain names, and a large file, are not removed. -/
theorem not_reclaims_untidy
    {key : Text}
    (kept : key = packKey none namedSha ∨ key = lfsKey) :
    ¬ Reclaims none untidy key := by
  intro reclaims
  have named : Referenced none untidy namedSha :=
    ⟨chainKey none .main, namedChain, by decide +kernel,
      by decide +kernel,
      ((World.chain?_eq_some_iff _ _).1 chain?_untidy).1,
      by decide +kernel⟩
  cases reclaims with
  | @pack sha unnamed =>
      rcases kept with same | same
      · rw [packKey_eq, packKey_eq, Slot.key_inj] at same
        cases same
        exact unnamed named
      · have last := congrArg List.getLast? same
        simp [packKey, lfsKey, join_eq, lit_eq, List.getLast?_cons] at last
  | @idx sha unnamed =>
      rcases kept with same | same
      · rw [packKey_eq, packIdxKey_eq, Slot.key_inj] at same
        cases same
      · have last := congrArg List.getLast? same
        simp [packIdxKey, lfsKey, join_eq, lit_eq, List.getLast?_cons]
          at last
  | @bundle refName sha hidden =>
      rcases kept with same | same
      · rw [packKey_eq, bundleKey_eq, Slot.key_inj] at same
        cases same
      · have last := congrArg List.getLast? same
        simp [bundleKey, lfsKey, join_eq, lit_eq, List.getLast?_cons]
          at last
  | tombstone marks =>
      rcases kept with rfl | rfl
      · exact absurd marks.2 (by decide +kernel)
      · exact absurd marks.2 (by decide +kernel)
  | baselineTombstone marks =>
      rcases kept with rfl | rfl
      · exact absurd marks.2 (by decide +kernel)
      · exact absurd marks.2 (by decide +kernel)

/-- A round on the untidy bucket, a day and an hour between its halves. -/
theorem round_untidy :
    let tidy :=
      round none ⟨24, false⟩ .reversed .reversed (25 * hour) untidy
    tidy.get? (packKey none orphanSha) = none ∧
      tidy.get? (bundleKey none .main supersededSha) = none ∧
      tidy.get? (packKey none namedSha) =
        untidy.get? (packKey none namedSha) ∧
      tidy.get? lfsKey = untidy.get? lfsKey := by
  have waited :
      due ⟨24, false⟩ (untidy.clock + 25 * hour) (some untidy.clock) =
        true := by
    decide +kernel
  have unnamed : ¬ Referenced none untidy orphanSha := by
    rintro ⟨key, chain, -, -, stored, named⟩
    have member := mem_of_body?_stocked stored
    unfold untidyStock at member
    simp only [List.mem_cons, Prod.mk.injEq, List.not_mem_nil, or_false,
      reduceCtorEq, and_false, false_or, Body.chain.injEq] at member
    rw [member.2] at named
    revert named
    decide +kernel
  have hidden : Hidden none untidy .main supersededSha := by
    refine
      ⟨baselineTombstoneKey [] (Platform.uuid 2),
        ⟨1, some 0, RefName.main.text, supersededSha⟩,
        ⟨by decide +kernel, by decide +kernel⟩, tombstones_untidy.2, rfl,
        rfl, ?_⟩
    intro chain found
    rw [chain?_untidy] at found
    cases found
    decide +kernel
  have round :=
    round_iff legible_untidy ripe_untidy waited .reversed .reversed
  exact
    ⟨(round _).1 (.pack unnamed), (round _).1 (.bundle hidden),
      (round _).2 (not_reclaims_untidy (Or.inl rfl)),
      (round _).2 (not_reclaims_untidy (Or.inr rfl))⟩

end Untidy

end GitRemoteObjectStore.GcCycle
