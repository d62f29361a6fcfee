import GitRemoteObjectStore.BundleListing
import GitRemoteObjectStore.Footprint

/-!
# Agreement of the key encoders and decoders

Pushes encode a reference and an object name in keys; `list` and the
collector decode them with parsers of their own.  The decoders accept fewer
references than the encoders do: `list` of the bundle engine wants
`refs/…/…`, that of the packchain engine and the collector want `refs/…`.
For the references they accept, they return what was encoded.
-/

namespace GitRemoteObjectStore

open CallProgram Prog Separated

/-- What a push has written. -/
def Written (before after : World) (key : Text) : Prop :=
  (after.body? key).isSome ∧ after.body? key ≠ before.body? key

/-! ## The bundle engine -/

namespace Bundle

section Codec

variable [Platform] {bucketPrefix : Option Text}

/-- What `list` reads off a key. -/
def decodeKey
    (bucketPrefix : Option Text) (key : Text) : Option (Text × Sha40) :=
  (relativeKey bucketPrefix key).bind parseBundleKey

theorem decodeKey_eq_some
    {key refPath : Text}
    {sha : Sha40} :
    decodeKey bucketPrefix key = some (refPath, sha) ↔
      ∃ refName : RefName,
        refName.text = refPath ∧ refName.Listable ∧
          key = bundleKey bucketPrefix refName sha := by
  have decoded :
      decodeKey bucketPrefix key = some (refPath, sha) ↔
        decodeLine bucketPrefix [] key = some ⟨sha, refPath⟩ := by
    unfold decodeLine decodeKey
    simp only [List.contains_nil, Bool.false_eq_true, if_false,
      Option.map_eq_some_iff, ListedRef.mk.injEq]
    constructor
    · intro found
      exact ⟨(refPath, sha), found, rfl, rfl⟩
    · rintro ⟨⟨path, name⟩, found, rfl, rfl⟩
      exact found
  rw [decoded, decodeLine_eq_some]
  constructor
  · rintro ⟨refName, path, listable, same, -⟩
    exact ⟨refName, path.symm, listable, same⟩
  · rintro ⟨refName, path, listable, same⟩
    exact ⟨refName, path.symm, listable, same, by simp⟩

/-- A bundle key decodes to what was encoded, or to nothing. -/
theorem decodeKey_bundleKey (refName : RefName) (sha : Sha40) :
    decodeKey bucketPrefix (bundleKey bucketPrefix refName sha) =
      if refName.Listable then some (refName.text, sha) else none := by
  split
  next listable =>
      exact decodeKey_eq_some.2 ⟨refName, rfl, listable, rfl⟩
  next unlistable =>
      apply Option.eq_none_iff_forall_not_mem.2
      rintro ⟨refPath, found⟩ decoded
      rcases decodeKey_eq_some.1 decoded with
        ⟨other, -, listable, same⟩
      rw [bundleKey_eq, bundleKey_eq, Slot.key_inj] at same
      cases same
      exact unlistable listable

/-- No other bundle is there after a push that was not there before. -/
theorem slot?_pushed
    {state : PushReadyState}
    {world : World}
    {refName : RefName}
    {sha : Sha40}
    (other :
      Slot.ref refName (.bundle sha) ≠
        .ref state.remoteRef (.bundle state.localSha)) :
    (pushed bucketPrefix state world).slot? bucketPrefix
          (.ref refName (.bundle sha)) =
        world.slot? bucketPrefix (.ref refName (.bundle sha)) ∨
      (pushed bucketPrefix state world).slot? bucketPrefix
          (.ref refName (.bundle sha)) =
        none := by
  have locked :
      (world.locked (lockKey bucketPrefix state.remoteRef)).slot?
          bucketPrefix (.ref refName (.bundle sha)) =
        world.slot? bucketPrefix (.ref refName (.bundle sha)) := by
    rw [World.locked, lockKey_eq, slot?_put, if_neg (by simp),
      slot?_remove, if_neg (by simp)]
  have stored :
      (uploaded bucketPrefix state
            (world.locked (lockKey bucketPrefix state.remoteRef))).slot?
          bucketPrefix (.ref refName (.bundle sha)) =
        world.slot? bucketPrefix (.ref refName (.bundle sha)) := by
    rw [uploaded, bundleKey_eq, headKey_eq, formatKey_eq,
      slot?_putIfAbsent_ne (by simp), slot?_putIfAbsent_ne (by simp),
      slot?_put, if_neg other, locked]
  unfold pushed committed archived
  rw [lockKey_eq, slot?_remove, if_neg (by simp)]
  rw [lockKey_eq] at stored
  have kept :
      (superseded bucketPrefix state state.preExisting
            (uploaded bucketPrefix state
              (world.locked ((Slot.ref state.remoteRef .lock).key
                bucketPrefix)))).slot?
            bucketPrefix (.ref refName (.bundle sha)) =
          world.slot? bucketPrefix (.ref refName (.bundle sha)) ∨
        (superseded bucketPrefix state state.preExisting
            (uploaded bucketPrefix state
              (world.locked ((Slot.ref state.remoteRef .lock).key
                bucketPrefix)))).slot?
            bucketPrefix (.ref refName (.bundle sha)) =
          none := by
    rw [← stored]
    have removed (prior : Text) (world : World) :
        (world.remove prior).slot? bucketPrefix
              (.ref refName (.bundle sha)) =
            world.slot? bucketPrefix (.ref refName (.bundle sha)) ∨
          (world.remove prior).slot? bucketPrefix
              (.ref refName (.bundle sha)) =
            none := by
      unfold World.slot?
      rw [World.body?_remove]
      split
      · exact Or.inr rfl
      · exact Or.inl rfl
    unfold superseded
    split
    · exact Or.inl rfl
    · split
      · unfold deferred
        split
        · exact removed _ _
        · split
          · exact removed _ _
          · exact Or.inl (slot?_tombstone (by simp))
      · exact Or.inl rfl
  split
  · exact kept
  · rw [archiveKey_eq, slot?_put, if_neg (by simp)]
    exact kept

/-- The bundle a push wrote stays there. -/
theorem slot?_pushed_self
    (state : PushReadyState)
    (world : World) :
    ((pushed bucketPrefix state world).slot? bucketPrefix
      (.ref state.remoteRef (.bundle state.localSha))).isSome := by
  have stored :
      ((uploaded bucketPrefix state
          (world.locked (lockKey bucketPrefix state.remoteRef))).slot?
        bucketPrefix
        (.ref state.remoteRef (.bundle state.localSha))).isSome := by
    rw [uploaded, bundleKey_eq, headKey_eq, formatKey_eq,
      slot?_putIfAbsent_ne (by simp), slot?_putIfAbsent_ne (by simp),
      slot?_put, if_pos rfl]
    rfl
  have kept :
      ((superseded bucketPrefix state state.preExisting
          (uploaded bucketPrefix state
            (world.locked (lockKey bucketPrefix state.remoteRef)))).slot?
        bucketPrefix
        (.ref state.remoteRef (.bundle state.localSha))).isSome := by
    have removed
        {prior : Text}
        (different :
          prior ≠ bundleKey bucketPrefix state.remoteRef state.localSha)
        {world : World}
        (stored :
          (world.slot? bucketPrefix
            (.ref state.remoteRef (.bundle state.localSha))).isSome) :
        ((world.remove prior).slot? bucketPrefix
          (.ref state.remoteRef (.bundle state.localSha))).isSome := by
      unfold World.slot? at stored ⊢
      rw [bundleKey_eq] at different
      rw [World.body?_remove, if_neg different.symm]
      exact stored
    unfold superseded
    split
    · exact stored
    · split
      next different =>
          unfold deferred
          split
          · exact removed different stored
          · split
            · exact removed different stored
            · rw [slot?_tombstone (by simp)]
              exact stored
      next => exact stored
  unfold pushed committed archived
  rw [lockKey_eq, slot?_remove, if_neg (by simp)]
  rw [lockKey_eq] at kept
  split
  · exact kept
  · rw [archiveKey_eq, slot?_put, if_neg (by simp)]
    exact kept

/-- The keys a push has written, as `list` reads them. -/
structure Decoded
    (bucketPrefix : Option Text)
    (before after : World)
    (refName : RefName)
    (sha : Sha40) : Prop where
  stored :
    (after.body? (bundleKey bucketPrefix refName sha)).isSome
  decoded :
    decodeKey bucketPrefix (bundleKey bucketPrefix refName sha) =
      if refName.Listable then some (refName.text, sha) else none
  others :
    ∀ key,
      Written before after key →
        key ≠ bundleKey bucketPrefix refName sha →
          decodeKey bucketPrefix key = none

theorem decoded_pushed (state : PushReadyState) (world : World) :
    Decoded bucketPrefix world (pushed bucketPrefix state world)
      state.remoteRef state.localSha := by
  constructor
  · rw [bundleKey_eq]
    exact slot?_pushed_self state world
  · exact decodeKey_bundleKey _ _
  · intro key written different
    apply Option.eq_none_iff_forall_not_mem.2
    rintro ⟨refPath, sha⟩ decoded
    rcases decodeKey_eq_some.1 decoded with ⟨refName, -, -, rfl⟩
    rw [bundleKey_eq] at written different
    rw [bundleKey_eq] at different
    have other :
        Slot.ref refName (.bundle sha) ≠
          .ref state.remoteRef (.bundle state.localSha) :=
      fun same => different (by rw [same])
    rcases @slot?_pushed _ bucketPrefix state world refName sha other
      with same | gone
    · exact written.2 same
    · have present := written.1
      unfold World.slot? at gone
      rw [gone] at present
      cases present

end Codec

end Bundle

/-! ## The packchain engine -/

namespace Packchain

section Codec

open Arrivals (Completion)

variable [Platform] {bucketPrefix : Option Text}

/-- The chains the collector reads. -/
def scannedChains
    (bucketPrefix : Option Text) (world : World) : List ObjectMeta :=
  (world.listing (join bucketPrefix (lit "refs/"))).filter
    fun entry => isChainJsonKey entry.key

/-- What the collector makes of one chain. -/
def scanChain
    (world : World)
    (shas : List Sha40)
    (entry : ObjectMeta) : Except PackchainError (List Sha40) :=
  match world.body? entry.key with
  | none => .error (.store (.notFound entry.key))
  | some body =>
      match ChainManifest.fromJsonBytes body with
      | .error error => .error error
      | .ok chain => insertSegments shas chain.segments

/-- What `listReferencedPacks` returns. -/
def referencedPacks
    (completion : Completion)
    (bucketPrefix : Option Text)
    (world : World) : Except PackchainError (List Sha40) :=
  (completion.arrange (scannedChains bucketPrefix world)).foldlM
    (scanChain world) []

theorem run_listReferencedPacks
    (completion : Completion)
    (world : World) :
    run answer (listReferencedPacks completion (prefixText bucketPrefix))
        world =
      (referencedPacks completion bucketPrefix world, world) := by
  unfold listReferencedPacks
  simp only [run_bind, run_mapError, Store.run_list, Except.mapError,
    join_some_prefixText]
  apply run_foldEach_read
  intro shas entry member
  rw [Completion.mem_arrange] at member
  rcases World.mem_listing.1 (List.mem_filter.1 member).1 with
    ⟨-, object, found, -⟩
  simp only [readChain, run_bind, run_mapError, Store.run_getBytes_present found,
    Except.mapError, scanChain, World.body?, found, Option.map_some]
  cases ChainManifest.fromJsonBytes object.body with
  | error error => rfl
  | ok chain =>
      simp only
      cases insertSegments shas chain.segments <;> rfl

/-- A chain the collector can read. -/
def Readable (world : World) (key : Text) : Prop :=
  ∃ chain,
    world.body? key = some (.chain chain) ∧
      chain.v = ChainManifest.schemaVersion ∧
      ∀ segment ∈ chain.segments, (shaFromPackKey segment.pack).isSome

omit [Platform] in
theorem scanChain_ok_iff
    {world : World}
    (shas : List Sha40)
    {entry : ObjectMeta} :
    (∃ next, scanChain world shas entry = .ok next) ↔
      Readable world entry.key := by
  unfold scanChain Readable
  cases stored : world.body? entry.key with
  | none => simp
  | some body =>
      cases parsed : ChainManifest.fromJsonBytes body with
      | error error =>
          simp only [parsed, reduceCtorEq, exists_false, false_iff,
            Option.some.injEq]
          rintro ⟨chain, rfl, version, -⟩
          rw [ChainManifest.fromJsonBytes_ok.2 ⟨rfl, version⟩] at parsed
          cases parsed
      | ok chain =>
          rcases ChainManifest.fromJsonBytes_ok.1 parsed with
            ⟨rfl, version⟩
          simp only [parsed, insertSegments_ok_iff, Option.some.injEq,
            Body.chain.injEq, exists_eq_left', version, true_and]

omit [Platform] in
/-- The collector stops at the first chain it cannot read. -/
theorem referencedPacks_ok_iff
    {completion : Completion}
    {world : World} :
    (∃ shas, referencedPacks completion bucketPrefix world = .ok shas) ↔
      ∀ entry ∈ scannedChains bucketPrefix world,
        Readable world entry.key := by
  have arranged
      (entry : ObjectMeta) :
      entry ∈ scannedChains bucketPrefix world ↔
        entry ∈ completion.arrange (scannedChains bucketPrefix world) :=
    Completion.mem_arrange.symm
  unfold referencedPacks
  simp only [arranged]
  generalize completion.arrange (scannedChains bucketPrefix world) = entries
  have scanning
      (shas : List Sha40) :
      (∃ read, entries.foldlM (scanChain world) shas = .ok read) ↔
        ∀ entry ∈ entries, Readable world entry.key := by
    induction entries generalizing shas with
    | nil => simp [Pure.pure, Except.pure]
    | cons entry rest hypothesis =>
        rw [List.forall_mem_cons, ← scanChain_ok_iff shas,
          List.foldlM_cons]
        cases scanned : scanChain world shas entry with
        | error error => simp [Bind.bind, Except.bind]
        | ok next =>
            simp only [Bind.bind, Except.bind, hypothesis,
              Except.ok.injEq, exists_eq', true_and]
  exact scanning []

omit [Platform] in
/-- Reading a chain counts the packs it names. -/
theorem mem_scanChain_iff
    {world : World}
    {shas next : List Sha40}
    {entry : ObjectMeta}
    (scanned : scanChain world shas entry = .ok next)
    {sha : Sha40} :
    sha ∈ next ↔
      sha ∈ shas ∨ ∃ chain,
        world.body? entry.key = some (.chain chain) ∧
          sha ∈ chain.packShas := by
  unfold scanChain at scanned
  split at scanned
  · cases scanned
  next body found =>
  split at scanned
  · cases scanned
  next manifest parsed =>
  rcases ChainManifest.fromJsonBytes_ok.1 parsed with ⟨rfl, -⟩
  rw [mem_insertSegments_iff scanned, found]
  simp only [Option.some.injEq, Body.chain.injEq, exists_eq_left',
    ChainManifest.packShas]

omit [Platform] in
theorem mem_foldlM_scanChain_iff
    {world : World}
    {entries : List ObjectMeta}
    {before shas : List Sha40}
    (read : entries.foldlM (scanChain world) before = .ok shas)
    {sha : Sha40} :
    sha ∈ shas ↔
      sha ∈ before ∨ ∃ entry ∈ entries, ∃ chain,
        world.body? entry.key = some (.chain chain) ∧
          sha ∈ chain.packShas := by
  induction entries generalizing before with
  | nil =>
      cases read
      simp
  | cons entry rest hypothesis =>
      rw [List.foldlM_cons] at read
      cases scanned : scanChain world before entry with
      | error error =>
          rw [scanned] at read
          cases read
      | ok next =>
          rw [scanned] at read
          rw [hypothesis read, mem_scanChain_iff scanned, or_assoc]
          simp only [List.mem_cons, exists_eq_or_imp]

omit [Platform] in
/-- Counted are the packs that the chains name. -/
theorem mem_referencedPacks_iff
    {completion : Completion}
    {world : World}
    {shas : List Sha40}
    (read : referencedPacks completion bucketPrefix world = .ok shas)
    {sha : Sha40} :
    sha ∈ shas ↔
      ∃ entry ∈ scannedChains bucketPrefix world, ∃ chain,
        world.body? entry.key = some (.chain chain) ∧
          sha ∈ chain.packShas := by
  rw [mem_foldlM_scanChain_iff read]
  simp only [List.not_mem_nil, false_or, Completion.mem_arrange]

omit [Platform] in
/-- The packs of a chain that was read are counted. -/
theorem mem_referencedPacks
    {completion : Completion}
    {world : World}
    {shas : List Sha40}
    (read : referencedPacks completion bucketPrefix world = .ok shas)
    {entry : ObjectMeta}
    (scanned : entry ∈ scannedChains bucketPrefix world)
    {chain : ChainManifest}
    (stored : world.body? entry.key = some (.chain chain))
    {segment : ChainSegment}
    (member : segment ∈ chain.segments) :
    ∃ sha ∈ shas, segmentPackSha segment = .ok sha := by
  rcases referencedPacks_ok_iff.1 ⟨shas, read⟩ entry scanned with
    ⟨manifest, same, -, wellFormed⟩
  rw [stored] at same
  cases same
  rcases Option.isSome_iff_exists.1 (wellFormed segment member) with
    ⟨sha, names⟩
  refine ⟨sha, (mem_referencedPacks_iff read).2 ?_, ?_⟩
  · exact
      ⟨entry, scanned, chain, stored,
        List.mem_filterMap.2 ⟨segment, member, names⟩⟩
  · unfold segmentPackSha
    rw [names]

omit [Platform] in
/-- The order in which the chains arrive decides nothing. -/
theorem referencedPacks_alike
    {completion : Completion}
    {world : World}
    {shas : List Sha40}
    (read : referencedPacks completion bucketPrefix world = .ok shas)
    (other : Completion) :
    ∃ others,
      referencedPacks other bucketPrefix world = .ok others ∧
        ∀ sha, sha ∈ others ↔ sha ∈ shas := by
  rcases referencedPacks_ok_iff.2 (referencedPacks_ok_iff.1 ⟨shas, read⟩)
    with ⟨others, also⟩
  refine ⟨others, also, fun sha => ?_⟩
  rw [mem_referencedPacks_iff also, mem_referencedPacks_iff read]

/-- Among the slots, chain keys are the chains' own. -/
theorem eq_chain_of_isChainJsonKey
    {slot : Slot}
    (chain : isChainJsonKey (slot.key bucketPrefix) = true) :
    ∃ refName, slot = .ref refName .chain := by
  have named : slot.name = lit "chain.json" := by
    rcases List.isSuffixOf_iff_suffix.1 chain with ⟨front, same⟩
    have shape : lit "/chain.json" = '/' :: lit "chain.json" := by
      simp [lit_eq]
    have absent : '/' ∉ lit "chain.json" := by simp [lit_eq]
    rw [← @lastSegment_key _ bucketPrefix, ← same, shape,
      lastSegment_append _ absent]
  have lengths := congrArg List.length named
  cases slot with
  | ref refName entry =>
      have same : entry = .chain := Entry.name_injective named
      exact ⟨refName, by rw [same]⟩
  | pack sha => simp [Slot.name, lit_eq, Sha40.length_text] at lengths
  | idx sha => simp [Slot.name, lit_eq, Sha40.length_text] at lengths
  | tombstone label => simp [Slot.name, lit_eq] at named
  | baselineTombstone runId => simp [Slot.name, lit_eq] at named
  | head => simp [Slot.name, lit_eq] at named
  | format => simp [Slot.name, lit_eq] at named

/-- A push changes no chain but its own. -/
theorem body?_run_pushOne
    {repo : LocalRepo}
    {ttl now : Int}
    {spec : PushSpec}
    (named : spec.localSpec ≠ [])
    {world : World}
    {key : Text}
    (chain : isChainJsonKey key = true)
    (other : key ≠ chainKey bucketPrefix spec.remoteRef) :
    (run answer (pushOne bucketPrefix repo ttl now spec)
        world).2.body? key =
      world.body? key := by
  have permits :
      Permits bucketPrefix spec.remoteRef .packchain
        (fun request => ¬ request.Writes key) := by
    apply permits_aside
    rintro slot touched rfl
    rcases eq_chain_of_isChainJsonKey chain with ⟨refName, rfl⟩
    apply other
    have own : refName = spec.remoteRef := by
      rcases touched with written | same | same | same
      · exact written.2
      · cases same
      · cases same
      · cases same
    rw [chainKey_eq, own]
  unfold World.body?
  rw [get?_run_of_issues
    (issues_pushOne permits repo ttl now spec.force named)]

/-- What the listing and the collector make of a pushed chain. -/
structure Decoded
    (bucketPrefix : Option Text)
    (before after : World)
    (refName : RefName)
    (sha : Sha40) : Prop where
  advertised :
    ∀ found,
      Advertises bucketPrefix after refName found ↔
        refName.UnderRefs ∧ found = sha
  others :
    ∀ other, other ≠ refName →
      ∀ found,
        Advertises bucketPrefix after other found ↔
          Advertises bucketPrefix before other found
  scanned :
    (∃ entry ∈ scannedChains bucketPrefix after,
        entry.key = chainKey bucketPrefix refName) ↔
      refName.UnderRefs
  counted :
    refName.UnderRefs →
      ∀ chain,
        after.chain? bucketPrefix refName = some chain →
          ∀ completion shas,
            (run answer
              (listReferencedPacks completion (prefixText bucketPrefix))
              after).1 = .ok shas →
            ∀ segment ∈ chain.segments,
              ∃ pack ∈ shas, segmentPackSha segment = .ok pack
  readable :
    (∃ completion shas,
        (run answer
          (listReferencedPacks completion (prefixText bucketPrefix))
          before).1 = .ok shas) →
      ∀ completion, ∃ shas,
        (run answer
          (listReferencedPacks completion (prefixText bucketPrefix))
          after).1 = .ok shas

omit [Platform] in
/-- The collector reads every `chain.json` under `refs/`. -/
theorem exists_mem_scannedChains
    {world : World}
    {key : Text} :
    (∃ entry ∈ scannedChains bucketPrefix world, entry.key = key) ↔
      join bucketPrefix (lit "refs/") <+: key ∧
        isChainJsonKey key = true ∧ (world.get? key).isSome := by
  constructor
  · rintro ⟨entry, member, rfl⟩
    rcases List.mem_filter.1 member with ⟨listed, chain⟩
    rcases World.exists_mem_listing.1 ⟨entry, listed, rfl⟩ with
      ⟨under, present⟩
    exact ⟨under, chain, present⟩
  · rintro ⟨under, chain, present⟩
    rcases World.exists_mem_listing.2 ⟨under, present⟩ with
      ⟨entry, listed, rfl⟩
    exact ⟨entry, List.mem_filter.2 ⟨listed, chain⟩, rfl⟩

/-- A chain of the bucket is read by the collector if it is under `refs/`. -/
theorem exists_scanned_iff
    {world : World}
    {refName : RefName} :
    (∃ entry ∈ scannedChains bucketPrefix world,
        entry.key = chainKey bucketPrefix refName) ↔
      refName.UnderRefs ∧
        (world.get? (chainKey bucketPrefix refName)).isSome := by
  rw [exists_mem_scannedChains, chainKey_eq, refs_prefix_chain_iff,
    isChainJsonKey_chain]
  simp

/-- What a bucket decodes to once one chain has been written. -/
theorem decoded_of_chain
    {before after : World}
    {refName : RefName}
    {chain : ChainManifest}
    (stored : after.chain? bucketPrefix refName = some chain)
    (others :
      ∀ key,
        isChainJsonKey key = true →
          key ≠ chainKey bucketPrefix refName →
            after.body? key = before.body? key)
    (wellFormed :
      (∀ entry ∈ scannedChains bucketPrefix before,
          Readable before entry.key) →
        refName.UnderRefs →
          ∀ segment ∈ chain.segments,
            (shaFromPackKey segment.pack).isSome) :
    Decoded bucketPrefix before after refName chain.tip := by
  rcases (World.chain?_eq_some_iff _ _).1 stored with ⟨body, version⟩
  have present := World.isSome_of_body? body
  constructor
  case advertised =>
      intro found
      rw [advertises_iff, stored]
      simp [eq_comm]
  case others =>
      intro other different found
      have same :
          after.chain? bucketPrefix other =
            before.chain? bucketPrefix other := by
        unfold World.chain?
        rw [others (chainKey bucketPrefix other)]
        · rw [chainKey_eq]
          exact isChainJsonKey_chain other
        · intro same
          rw [chainKey_eq, chainKey_eq, Slot.key_inj] at same
          cases same
          exact different rfl
      rw [advertises_iff, advertises_iff, same]
  case scanned =>
      rw [exists_scanned_iff]
      exact and_iff_left present
  case counted =>
      intro under manifest found completion shas read segment member
      rw [stored] at found
      cases found
      rw [run_listReferencedPacks] at read
      rcases exists_scanned_iff.2 ⟨under, present⟩ with
        ⟨entry, scanned, named⟩
      apply mem_referencedPacks read scanned _ member
      rw [named]
      exact body
  case readable =>
      simp only [run_listReferencedPacks, referencedPacks_ok_iff]
      rintro ⟨-, readable⟩ - entry scanned
      rcases List.mem_filter.1 scanned with ⟨listed, named⟩
      rcases World.mem_listing.1 listed with ⟨begins, object, found, -⟩
      by_cases own : entry.key = chainKey bucketPrefix refName
      · refine ⟨chain, by rw [own]; exact body, version, ?_⟩
        apply wellFormed readable
        exact (exists_scanned_iff.1 ⟨entry, scanned, own⟩).1
      · have kept := others entry.key named own
        have before? :
            (before.get? entry.key).isSome := by
          unfold World.body? at kept
          rw [found] at kept
          rcases Option.map_eq_some_iff.1 kept.symm with
            ⟨old, there, -⟩
          simp [there]
        rcases World.exists_mem_listing.2 ⟨begins, before?⟩ with
          ⟨old, oldListed, oldKey⟩
        have old_readable := readable old
          (List.mem_filter.2 ⟨oldListed, by rw [oldKey]; exact named⟩)
        rcases old_readable with ⟨manifest, oldBody, parts⟩
        refine ⟨manifest, ?_, parts⟩
        rw [kept, ← oldKey]
        exact oldBody

/-- The segments of the chain a push commits. -/
theorem segments_committedManifest
    (ready : ReadyState)
    {segment : ChainSegment}
    (member : segment ∈ (committedManifest ready).segments) :
    segment.pack = packKey none ready.packContentSha ∨
      ∃ prior,
        ready.prior = some prior ∧ segment ∈ prior.segments := by
  unfold committedManifest nextManifest newSegment at member
  cases force : ready.force with
  | true =>
      simp only [force, List.mem_singleton] at member
      exact Or.inl (by rw [member])
  | false =>
      cases prior : ready.prior with
      | none =>
          simp only [force, prior, List.mem_singleton] at member
          exact Or.inl (by rw [member])
      | some manifest =>
          simp only [force, prior, List.mem_cons] at member
          rcases member with rfl | inPrior
          · exact Or.inl rfl
          · exact Or.inr ⟨manifest, rfl, inPrior⟩

/-- A chain that was read has the packs the collector read. -/
theorem wellFormed_of_loaded
    {world : World}
    {refName : RefName}
    {chain : ChainManifest}
    (stored : world.chain? bucketPrefix refName = some chain)
    (readable :
      ∀ entry ∈ scannedChains bucketPrefix world,
        Readable world entry.key)
    (under : refName.UnderRefs)
    {segment : ChainSegment}
    (member : segment ∈ chain.segments) :
    (shaFromPackKey segment.pack).isSome := by
  rcases (World.chain?_eq_some_iff _ _).1 stored with ⟨body, -⟩
  rcases exists_scanned_iff.2 ⟨under, World.isSome_of_body? body⟩ with
    ⟨entry, scanned, named⟩
  rcases readable entry scanned with ⟨manifest, read, -, parts⟩
  rw [named, body] at read
  cases read
  exact parts segment member

/-- A successful push leaves a chain at its commit. -/
theorem decoded_of_run
    {repo : LocalRepo}
    {ttl now : Int}
    {spec : PushSpec}
    (named : spec.localSpec ≠ [])
    {world : World}
    {refName : RefName}
    (reported :
      (run answer (pushOne bucketPrefix repo ttl now spec) world).1 =
        .ok (.ok refName)) :
    ∃ sha,
      repo.resolve spec.localSpec = some sha ∧
        Decoded bucketPrefix world
          (run answer (pushOne bucketPrefix repo ttl now spec) world).2
          spec.remoteRef sha := by
  have others :
      ∀ key,
        isChainJsonKey key = true →
          key ≠ chainKey bucketPrefix spec.remoteRef →
            (run answer (pushOne bucketPrefix repo ttl now spec)
                world).2.body? key =
              world.body? key :=
    fun key chain other => body?_run_pushOne named chain other
  rcases succeeds_of_run named reported with
    ⟨prior, found, probed, ended⟩
  have loaded := loadedChain_eq_ok _ _ _ probed.loaded
  refine ⟨found.localSha, probed.git.resolved, ?_⟩
  rcases ended with upToDate | ⟨built, pathIndex, succeeds⟩
  · have unchanged :
        (run answer (pushOne bucketPrefix repo ttl now spec) world).2 =
          world := by
      have prepares := probed.run
      rw [if_pos upToDate] at prepares
      rw [pushOne_named repo ttl now named, run_bind_ok prepares]
      rfl
    rw [unchanged]
    rcases Option.map_eq_some_iff.1 upToDate.2 with ⟨chain, same, tip⟩
    rw [same] at loaded
    rw [← tip]
    apply decoded_of_chain loaded
    · intro key _ _
      rfl
    · intro readable under segment member
      exact wellFormed_of_loaded loaded readable under member
  · rw [succeeds.run] at others ⊢
    have stored :
        (pushed bucketPrefix (readyState spec prior found built.1) built
              pathIndex world).chain? bucketPrefix spec.remoteRef =
          some
            (committedManifest
              (readyState spec prior found built.1)) :=
      chain?_pushed _ built pathIndex world
    have tip :
        found.localSha =
          (committedManifest (readyState spec prior found built.1)).tip :=
      (nextManifest_tip _ _ _ _).symm
    rw [tip]
    apply decoded_of_chain stored others
    intro readable under segment member
    rcases segments_committedManifest _ member with
      new | ⟨chain, same, inPrior⟩
    · rw [new, shaFromPackKey_packKey]
      rfl
    · have same : prior = some chain := same
      rw [same] at loaded
      exact wellFormed_of_loaded loaded readable under inPrior

end Codec

end Packchain

/-! ## Both engines -/

section Engines

variable [Platform]

/--
Successful pushes write keys that the decoders read back.  The bundle engine
stores one bundle key, which decodes to the pushed reference and commit if
the reference is `refs/…/…` and to nothing otherwise; no other key it writes
decodes.  The packchain engine stores one chain, which `list` and the
collector find if the reference is under `refs/`.
-/
theorem keys_decoded
    (bucketPrefix : Option Text)
    (repo : LocalRepo)
    (ttl now : Int)
    {spec : PushSpec}
    (named : spec.localSpec ≠ [])
    (world : World)
    {refName : RefName} :
    (∀ zip,
      (run answer
          (Bundle.pushOne bucketPrefix repo zip ttl now spec) world).1 =
          .ok (.ok refName) →
        ∃ sha,
          repo.resolve spec.localSpec = some sha ∧
            Bundle.Decoded bucketPrefix world
              (run answer
                (Bundle.pushOne bucketPrefix repo zip ttl now spec)
                world).2
              spec.remoteRef sha) ∧
      ((run answer
          (Packchain.pushOne bucketPrefix repo ttl now spec) world).1 =
          .ok (.ok refName) →
        ∃ sha,
          repo.resolve spec.localSpec = some sha ∧
            Packchain.Decoded bucketPrefix world
              (run answer (Packchain.pushOne bucketPrefix repo ttl now spec)
                world).2
              spec.remoteRef sha) := by
  constructor
  · intro zip reported
    rcases Bundle.succeeds_of_run named reported with
      ⟨found, bundle, succeeds⟩
    refine ⟨found.localSha, succeeds.prepared.git.resolved, ?_⟩
    rw [succeeds.run]
    exact
      Bundle.decoded_pushed
        (Bundle.readyState bucketPrefix spec world found bundle) world
  · exact Packchain.decoded_of_run named

end Engines

section Buckets

attribute [local instance] Platform.simple

/-- A reference that `list` of the bundle engine passes over. -/
def stash : RefName :=
  ⟨lit "refs/stash", by decide +kernel⟩

/-- A pushed reference that no decoder of the bundle engine reads. -/
theorem not_keys_decoded :
    (run answer
        (Bundle.pushOne none .linear false 60 0 ⟨false, ['a'], stash⟩)
        (.empty 0)).1 = .ok (.ok stash) ∧
      ((run answer
          (Bundle.pushOne none .linear false 60 0 ⟨false, ['a'], stash⟩)
          (.empty 0)).2.body?
        (bundleKey none stash (digitSha 'a' hex_a))).isSome ∧
      Bundle.decodeKey none
          (bundleKey none stash (digitSha 'a' hex_a)) =
        none := by
  refine ⟨?_, ?_, ?_⟩
  · decide +kernel
  · decide +kernel
  · decide +kernel

theorem keys_decoded_pushed :
    (∃ sha,
      LocalRepo.linear.resolve ['a'] = some sha ∧
        Bundle.Decoded none (.empty 0)
          (run answer
            (Bundle.pushOne none .linear false 60 0 ⟨false, ['a'], .main⟩)
            (.empty 0)).2
          .main sha) ∧
      ∃ sha,
        LocalRepo.linear.resolve ['a'] = some sha ∧
          Packchain.Decoded none (.empty 0)
            (run answer
              (Packchain.pushOne none .linear 60 0 ⟨false, ['a'], .main⟩)
              (.empty 0)).2
            .main sha := by
  have decoded :=
    @keys_decoded _ none .linear 60 0 ⟨false, ['a'], .main⟩ (by decide)
      (.empty 0) .main
  constructor
  · apply decoded.1 false
    decide +kernel
  · apply decoded.2
    decide +kernel

end Buckets

end GitRemoteObjectStore
