import GitRemoteObjectStore.Doctor
import GitRemoteObjectStore.Tombstones

/-!
# The snapshot of `doctor`

The snapshot shows, under every path below the prefix, the bundles of the
listing that no tombstone hides.  Nothing in it asks whether that path is a
reference of the repository.
-/

namespace GitRemoteObjectStore.Doctor

open CallProgram Prog Separated

variable
    [Platform]
    {bucketPrefix : Option Text}

/-! ## What the snapshot shows -/

/-- The bundles of a reference path. -/
def RepoSnapshot.bundlesAt
    (snapshot : RepoSnapshot) (refPath : Text) : List BundleEntry :=
  ((snapshot.refs.lookup refPath).map RefSnapshot.bundles).getD []

/-- Whether a reference path has a chain. -/
def RepoSnapshot.chainAt
    (snapshot : RepoSnapshot) (refPath : Text) : Bool :=
  ((snapshot.refs.lookup refPath).map RefSnapshot.hasChain).getD false

/-- The relative key of a bundle, and of a chain. -/
def bundlePath (refPath : Text) (sha : Sha40) : Text :=
  refPath ++ '/' :: (sha.text ++ lit ".bundle")

def chainPath (refPath : Text) : Text :=
  refPath ++ '/' :: lit "chain.json"

/-- The bundle a listed object is, if it is one of that reference path. -/
def bundleOf
    (listPrefix : Text)
    (object : ObjectMeta)
    (refPath : Text) : Option BundleEntry :=
  match stripPrefix listPrefix object.key with
  | none => none
  | some relative =>
      if isBookkeepingDir relative then none
      else
        match rsplitOnce '/' relative with
        | none => none
        | some (path, last) =>
            if path = refPath then
              ((stripSuffix (lit ".bundle") last).bind
                Sha40.tryNew).map
                fun sha => ⟨sha, object.key, object.lastModified⟩
            else none

omit [Platform] in
theorem bundle_no_slash (sha : Sha40) :
    '/' ∉ sha.text ++ lit ".bundle" := by
  simp [sha.no_slash, lit_eq]

omit [Platform] in
theorem bundleOf_eq_some
    {listPrefix refPath : Text}
    {object : ObjectMeta}
    {entry : BundleEntry} :
    bundleOf listPrefix object refPath = some entry ↔
      object.key = listPrefix ++ bundlePath refPath entry.sha ∧
        isBookkeepingDir (bundlePath refPath entry.sha) = false ∧
          entry.key = object.key ∧
            entry.lastModified = object.lastModified := by
  constructor
  · intro found
    unfold bundleOf at found
    split at found
    · cases found
    next relative stripped =>
    split at found
    · cases found
    next outside =>
    split at found
    · cases found
    next path last cut =>
    split at found
    next same =>
      subst same
      rcases Option.map_eq_some_iff.1 found with ⟨sha, parsed, rfl⟩
      rcases Option.bind_eq_some_iff.1 parsed with ⟨stem, suffix, valid⟩
      have lastName : last = sha.text ++ lit ".bundle" := by
        rw [stripSuffix_eq_some.1 suffix, Sha40.text_of_tryNew valid]
      have slash : '/' ∈ relative := by
        unfold rsplitOnce at cut
        split at cut
        next member => exact member
        next => cases cut
      rcases exists_last slash with ⟨front, tail, rfl, absent⟩
      rw [rsplitOnce_append front absent] at cut
      cases cut
      subst lastName
      exact
        ⟨stripPrefix_eq_some.1 stripped, by simpa [bundlePath] using outside,
          rfl, rfl⟩
    next => cases found
  · rintro ⟨key, outside, entryKey, modified⟩
    unfold bundleOf
    have stripped :
        stripPrefix listPrefix object.key =
          some (bundlePath refPath entry.sha) :=
      stripPrefix_eq_some.2 key
    have stem :
        stripSuffix (lit ".bundle") (entry.sha.text ++ lit ".bundle") =
          some entry.sha.text :=
      stripSuffix_eq_some.2 rfl
    simp only [stripped, outside, Bool.false_eq_true, if_false]
    unfold bundlePath
    rw [rsplitOnce_append _ (bundle_no_slash entry.sha)]
    simp only [if_true, stem, Option.bind_some, Sha40.tryNew_text,
      Option.map_some, Option.some.injEq]
    cases entry
    simp_all

section Entries

variable
    (snapshot : RepoSnapshot)
    (refPath : Text)
    (change : RefSnapshot → RefSnapshot)

omit [Platform] in
theorem bundlesAt_entry
    (added : List BundleEntry)
    (changes :
      ∀ found : RefSnapshot,
        (change found).bundles = found.bundles ++ added)
    (other : Text) :
    (snapshot.entry refPath change).bundlesAt other =
      snapshot.bundlesAt other ++
        if refPath = other then added else [] := by
  unfold RepoSnapshot.bundlesAt RepoSnapshot.entry
  by_cases same : refPath = other
  · subst same
    rw [if_pos rfl, AList.lookup_insert, Option.map_some, Option.getD_some,
      changes]
    cases snapshot.refs.lookup refPath <;> rfl
  · rw [if_neg same, AList.lookup_insert_ne (Ne.symm same),
      List.append_nil]

omit [Platform] in
theorem chainAt_of_kept
    {other : Text}
    (shown : (snapshot.entry refPath change).chainAt other = true)
    (keeps :
      ∀ found : RefSnapshot, (change found).hasChain = found.hasChain) :
    snapshot.chainAt other = true := by
  unfold RepoSnapshot.chainAt RepoSnapshot.entry at shown
  by_cases same : other = refPath
  · subst same
    rw [AList.lookup_insert, Option.map_some, Option.getD_some, keeps]
      at shown
    unfold RepoSnapshot.chainAt
    cases found : snapshot.refs.lookup other with
    | none =>
        rw [found] at shown
        cases shown
    | some entry =>
        rw [found] at shown
        exact shown
  · rw [AList.lookup_insert_ne same] at shown
    exact shown

omit [Platform] in
theorem chainAt_of_entry
    {other : Text}
    (shown : (snapshot.entry refPath change).chainAt other = true) :
    snapshot.chainAt other = true ∨ refPath = other := by
  by_cases same : other = refPath
  · exact Or.inr same.symm
  · left
    unfold RepoSnapshot.chainAt RepoSnapshot.entry at shown
    rw [AList.lookup_insert_ne same] at shown
    exact shown

end Entries

/-- A snapshot with one more object slotted in. -/
structure Slotted
    (listPrefix : Text)
    (object : ObjectMeta)
    (snapshot next : RepoSnapshot) : Prop where
  bundles :
    ∀ refPath,
      next.bundlesAt refPath =
        snapshot.bundlesAt refPath ++
          (bundleOf listPrefix object refPath).toList
  chain :
    ∀ refPath,
      next.chainAt refPath = true →
        snapshot.chainAt refPath = true ∨
          object.key = listPrefix ++ chainPath refPath

omit [Platform] in
/-- Another name than that of a bundle. -/
theorem stripSuffix_bundle_none
    {last ending : Text}
    (suffix : ending <:+ last)
    (differs : ending.getLast? ≠ some 'e')
    (nonempty : ending ≠ []) :
    stripSuffix (lit ".bundle") last = none := by
  cases found : stripSuffix (lit ".bundle") last with
  | none => rfl
  | some stem =>
      exfalso
      apply differs
      rcases suffix with ⟨front, rfl⟩
      have same := congrArg List.getLast? (stripSuffix_eq_some.1 found)
      rw [List.getLast?_append, List.getLast?_append] at same
      rcases List.getLast?_isSome.2 nonempty |> Option.isSome_iff_exists.1
        with ⟨final, ends⟩
      rw [ends] at same ⊢
      simpa [lit_eq] using same

/-- Slotting an object in changes no object of the bucket. -/
theorem run_classifyInto
    (listPrefix : Text)
    {object : ObjectMeta}
    {world : World}
    (present : (world.get? object.key).isSome)
    (snapshot : RepoSnapshot) :
    ∃ next,
      run answer (classifyInto listPrefix snapshot object) world =
          (.ok next, world) ∧
        Slotted listPrefix object snapshot next := by
  have unchanged
      (none : ∀ refPath, bundleOf listPrefix object refPath = none)
      (next : RepoSnapshot)
      (refs : next.refs = snapshot.refs) :
      Slotted listPrefix object snapshot next := by
    constructor
    · intro refPath
      unfold RepoSnapshot.bundlesAt
      rw [none refPath, refs]
      simp
    · intro refPath shown
      unfold RepoSnapshot.chainAt at shown ⊢
      rw [refs] at shown
      exact Or.inl shown
  unfold classifyInto
  cases stripped : stripPrefix listPrefix object.key with
  | none =>
      refine ⟨snapshot, rfl, unchanged (fun refPath => ?_) _ rfl⟩
      simp [bundleOf, stripped]
  | some relative =>
      simp only
      split
      next head =>
          rcases Option.isSome_iff_exists.1 present with ⟨stored, found⟩
          refine
            ⟨{ snapshot with head := headOf stored.body }, ?_,
              unchanged (fun refPath => ?_) _ rfl⟩
          · simp [run_bind, run_mapError, Store.run_getBytes_present found,
              Except.mapError]
          · rw [head] at stripped
            simp [bundleOf, stripped, rsplitOnce, lit_eq,
              isBookkeepingDir]
      next named =>
      split
      next bookkeeping =>
          refine ⟨snapshot, rfl, unchanged (fun refPath => ?_) _ rfl⟩
          simp [bundleOf, stripped, bookkeeping]
      next outside =>
      cases cut : rsplitOnce '/' relative with
      | none =>
          refine ⟨snapshot, rfl, unchanged (fun refPath => ?_) _ rfl⟩
          simp [bundleOf, stripped, outside, cut]
      | some parts =>
          rcases parts with ⟨path, last⟩
          have shown (refPath : Text) :
              bundleOf listPrefix object refPath =
                if path = refPath then
                  ((stripSuffix (lit ".bundle") last).bind
                    Sha40.tryNew).map
                    fun sha => ⟨sha, object.key, object.lastModified⟩
                else none := by
            simp [bundleOf, stripped, outside, cut]
          have foreign
              (none : stripSuffix (lit ".bundle") last = none)
              (refPath : Text) :
              bundleOf listPrefix object refPath = Option.none := by
            simp [shown, none]
          simp only
          split
          next operational =>
              refine
                ⟨snapshot, rfl, unchanged (foreign ?_) _ rfl⟩
              rcases Bool.or_eq_true_iff.1 operational with lock | zip
              · exact
                  stripSuffix_bundle_none
                    (List.isSuffixOf_iff_suffix.1 lock)
                    (by simp [lit_eq]) (by simp [lit_eq])
              · rw [of_decide_eq_true zip]
                decide +kernel
          split
          next marker =>
              refine ⟨_, rfl, ?_, ?_⟩
              · intro refPath
                rw [bundlesAt_entry snapshot path _ [] (by simp), foreign]
                · simp
                · rw [marker]
                  decide +kernel
              · intro refPath chain
                left
                exact
                  chainAt_of_kept snapshot path _ chain fun _ => rfl
          next unmarked =>
          cases suffix : stripSuffix (lit ".bundle") last with
          | some stem =>
              simp only
              cases parsed : Sha40.tryNew stem with
              | some sha =>
                  refine ⟨_, rfl, ?_, ?_⟩
                  · intro refPath
                    rw [bundlesAt_entry snapshot path _ _ (fun _ => rfl),
                      shown]
                    split
                    · simp [suffix, parsed]
                    · rfl
                  · intro refPath chain
                    left
                    exact
                      chainAt_of_kept snapshot path _ chain fun _ => rfl
              | none =>
                  refine
                    ⟨_, rfl, unchanged (fun refPath => ?_) _ rfl⟩
                  simp [shown, suffix, parsed]
          | none =>
              simp only
              split
              next chained =>
                  refine ⟨_, rfl, ?_, ?_⟩
                  · intro refPath
                    rw [bundlesAt_entry snapshot path _ [] (by simp), foreign suffix]
                    simp
                  · intro refPath chain
                    rcases chainAt_of_entry snapshot path _ chain with
                      before | rfl
                    · exact Or.inl before
                    · right
                      have slash : '/' ∈ relative := by
                        unfold rsplitOnce at cut
                        split at cut
                        next member => exact member
                        next => cases cut
                      rcases exists_last slash with
                        ⟨front, tail, rfl, absent⟩
                      rw [rsplitOnce_append front absent] at cut
                      cases cut
                      rw [stripPrefix_eq_some.1 stripped, chained]
                      rfl
              next => exact ⟨snapshot, rfl, unchanged (foreign suffix) _ rfl⟩

/-! ## The analysis -/

/-- A baseline tombstone of the repository names this key. -/
def Hidden
    (bucketPrefix : Option Text) (world : World) (key : Text) : Prop :=
  ∃ tombstone record, ∃ refName : RefName,
    isBaselineTombstoneKey tombstone (prefixText bucketPrefix) = true ∧
      world.body? tombstone = some (.baselineTombstone record) ∧
      record.v = tombstoneSchemaVersion ∧
      record.refName = refName.text ∧
      key = bundleKey bucketPrefix refName record.sha

theorem mem_hiddenKeys {world : World} {key : Text} :
    key ∈ hiddenKeys bucketPrefix world ↔
      Hidden bucketPrefix world key := by
  rw [hiddenKeys, mem_foldl_hideStep]
  simp only [List.not_mem_nil, false_or, Option.bind_eq_some_iff,
    tombstonedKey_eq_some]
  constructor
  · rintro ⟨entry, member, named, body, found, record, refName, rfl,
      version, sameName, sameKey⟩
    exact
      ⟨entry.key, record, refName, named, found, version, sameName,
        sameKey⟩
  · rintro ⟨tombstone, record, refName, named, found, version, sameName,
      sameKey⟩
    rcases Option.map_eq_some_iff.1 found with ⟨object, present, body⟩
    exact
      ⟨⟨tombstone, object.lastModified⟩,
        World.mem_listing.2
          ⟨gcListingPrefix_of_isBaselineTombstoneKey named, object,
            present, rfl⟩,
        named, _, found, record, refName, rfl, version, sameName, sameKey⟩

omit [Platform] in
/-- The prefix is recovered from the listing prefix. -/
theorem prefixText_prefixOfListing (bucketPrefix : Option Text) :
    prefixText
        (prefixOfListing (join (some (prefixText bucketPrefix)) [])) =
      prefixText bucketPrefix := by
  generalize prefixText bucketPrefix = text
  unfold prefixOfListing join
  by_cases empty : text = []
  · simp [empty, prefixText, stripSuffix]
  · have stripped :
        stripSuffix ['/'] (text ++ ['/']) = some text :=
      stripSuffix_eq_some.2 rfl
    simp [empty, stripped, prefixText, Option.filter]

/-- What is hidden depends on the text of the prefix only. -/
theorem hiddenKeys_congr
    {other : Option Text}
    (same : prefixText other = prefixText bucketPrefix)
    (world : World) :
    hiddenKeys other world = hiddenKeys bucketPrefix world := by
  have keys (refName : RefName) (sha : Sha40) :
      bundleKey other refName sha = bundleKey bucketPrefix refName sha := by
    unfold bundleKey
    rw [← join_some_prefixText, same, join_some_prefixText]
  unfold hiddenKeys hideStep tombstonedKey
  simp only [same, keys]

/-- The bundles among listed objects that are not hidden. -/
def bundlesAmong
    (bucketPrefix : Option Text)
    (world : World)
    (objects : List ObjectMeta)
    (refPath : Text) : List BundleEntry :=
  (objects.filter fun object =>
    !(hiddenKeys bucketPrefix world).contains object.key).filterMap
      fun object => bundleOf (keyRoot bucketPrefix) object refPath

/-- The bundles of a reference path, as the listing shows them. -/
def shownBundles
    (bucketPrefix : Option Text)
    (world : World)
    (refPath : Text) : List BundleEntry :=
  bundlesAmong bucketPrefix world (world.listing (keyRoot bucketPrefix))
    refPath

/-- A snapshot right so far: what is left to slot in completes it. -/
structure Analyzing
    (bucketPrefix : Option Text)
    (world : World)
    (snapshot : RepoSnapshot)
    (rest : List ObjectMeta) : Prop where
  listed : rest ⊆ world.listing (keyRoot bucketPrefix)
  bundles :
    ∀ refPath,
      snapshot.bundlesAt refPath ++
          bundlesAmong bucketPrefix world rest refPath =
        shownBundles bucketPrefix world refPath
  chains :
    ∀ refPath,
      snapshot.chainAt refPath = true →
        (world.get? (keyRoot bucketPrefix ++ chainPath refPath)).isSome

theorem run_analyzeObject
    {world : World}
    {snapshot : RepoSnapshot}
    {object : ObjectMeta}
    {rest : List ObjectMeta}
    (analyzing :
      Analyzing bucketPrefix world snapshot (object :: rest)) :
    ∃ next,
      run answer
          (if (hiddenKeys bucketPrefix world).contains object.key then
            pure snapshot
          else classifyInto (keyRoot bucketPrefix) snapshot object)
          world =
          (.ok next, world) ∧
        Analyzing bucketPrefix world next rest := by
  rcases analyzing with ⟨listed, bundles, chains⟩
  have member := listed (List.mem_cons_self ..)
  have others : rest ⊆ world.listing (keyRoot bucketPrefix) :=
    fun entry later => listed (List.mem_cons_of_mem object later)
  rcases World.mem_listing.1 member with ⟨-, stored, found, -⟩
  by_cases hides :
      (hiddenKeys bucketPrefix world).contains object.key = true
  · refine ⟨snapshot, by rw [if_pos hides]; rfl, others, ?_, chains⟩
    intro refPath
    rw [← bundles refPath, bundlesAmong, bundlesAmong, List.filter_cons,
      hides]
    rfl
  · have present : (world.get? object.key).isSome := by
      rw [found]
      rfl
    rcases run_classifyInto (keyRoot bucketPrefix) present snapshot with ⟨next, outcome, slotted⟩
    refine ⟨next, by rw [if_neg hides, outcome], others, ?_, ?_⟩
    · intro refPath
      rw [← bundles refPath, slotted.bundles refPath, bundlesAmong,
        bundlesAmong, List.filter_cons, if_pos (by simpa using hides),
        List.filterMap_cons, List.append_assoc]
      cases bundleOf (keyRoot bucketPrefix) object refPath <;> rfl
    · intro refPath shown
      rcases slotted.chain refPath shown with before | key
      · exact chains refPath before
      · rw [← key, found]
        rfl

/-- The analysis finds what the listing shows, and changes nothing. -/
theorem run_analyzeObjects
    (bucketPrefix : Option Text)
    (world : World) :
    ∃ snapshot,
      run answer
          (analyzeObjects (world.listing (keyRoot bucketPrefix))
            (keyRoot bucketPrefix)) world =
          (.ok snapshot, world) ∧
        Analyzing bucketPrefix world snapshot [] := by
  have hidden :
      hiddenKeys (prefixOfListing (keyRoot bucketPrefix)) world =
        hiddenKeys bucketPrefix world := by
    apply hiddenKeys_congr
    rw [← prefixText_prefixOfListing bucketPrefix, join_eq,
      List.append_nil, keyRoot_some_prefixText]
  unfold analyzeObjects
  simp only [run_bind, run_mapError, run_tombstonedBundleKeys, hidden,
    Except.mapError]
  exact
    run_foldEach_keeping (Analyzing bucketPrefix world)
      (fun _ _ _ analyzing => run_analyzeObject analyzing)
      ⟨List.Subset.refl _, fun _ => rfl, fun _ shown => by cases shown⟩

theorem Analyzing.bundlesAt
    {world : World}
    {snapshot : RepoSnapshot}
    (analyzed : Analyzing bucketPrefix world snapshot [])
    (refPath : Text) :
    snapshot.bundlesAt refPath =
      shownBundles bucketPrefix world refPath := by
  rw [← analyzed.bundles refPath]
  exact (List.append_nil _).symm

/-! ## The bundles shown -/

/-- A bundle of that name is stored, listed as one, and not hidden. -/
structure Shown
    (bucketPrefix : Option Text)
    (world : World)
    (refPath : Text)
    (sha : Sha40) : Prop where
  present :
    (world.get? (keyRoot bucketPrefix ++ bundlePath refPath sha)).isSome
  plain :
    ¬ Hidden bucketPrefix world
      (keyRoot bucketPrefix ++ bundlePath refPath sha)
  outside : isBookkeepingDir (bundlePath refPath sha) = false

omit [Platform] in
theorem bundlePath_inj
    {left right : Text}
    {sha other : Sha40} :
    bundlePath left sha = bundlePath right other ↔
      left = right ∧ sha = other := by
  constructor
  · intro same
    unfold bundlePath at same
    rcases
      (append_separator_inj (bundle_no_slash sha)
        (bundle_no_slash other)).1 same with ⟨sameRef, sameName⟩
    exact ⟨sameRef, Sha40.ext (List.append_cancel_right sameName)⟩
  · rintro ⟨rfl, rfl⟩
    rfl

theorem shown_of_mem
    {world : World}
    {refPath : Text}
    {entry : BundleEntry}
    (member : entry ∈ shownBundles bucketPrefix world refPath) :
    entry.key = keyRoot bucketPrefix ++ bundlePath refPath entry.sha ∧
      Shown bucketPrefix world refPath entry.sha := by
  unfold shownBundles bundlesAmong at member
  rcases List.mem_filterMap.1 member with ⟨object, kept, slotted⟩
  rcases List.mem_filter.1 kept with ⟨listed, visible⟩
  rcases bundleOf_eq_some.1 slotted with ⟨key, outside, entryKey, -⟩
  rcases World.mem_listing.1 listed with ⟨-, stored, found, -⟩
  rw [key] at found visible
  rw [entryKey, key]
  refine ⟨rfl, by simp [found], ?_, outside⟩
  rw [← mem_hiddenKeys]
  simpa using visible

theorem Shown.exists_mem
    {world : World}
    {refPath : Text}
    {sha : Sha40}
    (shown : Shown bucketPrefix world refPath sha) :
    ∃ entry ∈ shownBundles bucketPrefix world refPath,
      entry.sha = sha := by
  rcases Option.isSome_iff_exists.1 shown.present with ⟨stored, found⟩
  refine
    ⟨⟨sha, keyRoot bucketPrefix ++ bundlePath refPath sha,
      stored.lastModified⟩, ?_, rfl⟩
  unfold shownBundles bundlesAmong
  refine
    List.mem_filterMap.2
      ⟨⟨keyRoot bucketPrefix ++ bundlePath refPath sha,
        stored.lastModified⟩,
        List.mem_filter.2
          ⟨World.mem_listing.2
            ⟨List.prefix_append .., stored, found, rfl⟩, ?_⟩, ?_⟩
  · have visible := shown.plain
    rw [← mem_hiddenKeys] at visible
    simpa using visible
  · exact bundleOf_eq_some.2 ⟨rfl, shown.outside, rfl, rfl⟩

/-- Two different bundles are several. -/
theorem Shown.several
    {world : World}
    {refPath : Text}
    {sha other : Sha40}
    (shown : Shown bucketPrefix world refPath sha)
    (different : other ≠ sha)
    (shown' : Shown bucketPrefix world refPath other) :
    1 < (shownBundles bucketPrefix world refPath).length := by
  rcases shown.exists_mem with ⟨entry, member, rfl⟩
  rcases shown'.exists_mem with ⟨entry', member', rfl⟩
  have distinct : entry ≠ entry' := by
    rintro rfl
    exact different rfl
  revert member member'
  cases shownBundles bucketPrefix world refPath with
  | nil => simp
  | cons first rest =>
      cases rest with
      | nil =>
          intro member member'
          exact
            (distinct
              ((List.mem_singleton.1 member).trans
                (List.mem_singleton.1 member').symm)).elim
      | cons second rest => simp

end GitRemoteObjectStore.Doctor
