import GitRemoteObjectStore.BundleRuns

/-!
# The listing of the bundle engine

`list` decodes the keys of the bucket and leaves out the hidden ones.  Its
lines for a reference are the visible bundles of that reference, one line
for each.
-/

namespace GitRemoteObjectStore.Bundle

open CallProgram Prog

variable [Platform] {bucketPrefix : Option Text}

/-- The line a listed key contributes. -/
def decodeLine
    (bucketPrefix : Option Text)
    (hidden : List Text)
    (key : Text) : Option ListedRef :=
  if hidden.contains key then none
  else
    ((relativeKey bucketPrefix key).bind parseBundleKey).map fun found =>
      ⟨found.2, found.1⟩

/-- Only bundle keys of listable references are decoded. -/
theorem decodeLine_eq_some
    {hidden : List Text}
    {key : Text}
    {line : ListedRef} :
    decodeLine bucketPrefix hidden key = some line ↔
      ∃ refName : RefName,
        line.refPath = refName.text ∧ refName.Listable ∧
          key = bundleKey bucketPrefix refName line.sha ∧
          key ∉ hidden := by
  rcases line with ⟨sha, refPath⟩
  unfold decodeLine
  constructor
  · intro decoded
    split at decoded
    · cases decoded
    next shown =>
        rcases Option.map_eq_some_iff.1 decoded with
          ⟨⟨path, found⟩, parsed, same⟩
        cases same
        rcases Option.bind_eq_some_iff.1 parsed with
          ⟨rel, relative, parsedRel⟩
        rcases parseBundleKey_eq_some.1 parsedRel with
          ⟨refName, rfl, listable, rfl⟩
        refine ⟨refName, rfl, listable, ?_, by simpa using shown⟩
        rw [relativeKey_eq_some.1 relative, bundleKey_eq]
        rfl
  · rintro ⟨refName, rfl, listable, rfl, shown⟩
    rw [if_neg (by simpa using shown)]
    apply Option.map_eq_some_iff.2
    refine ⟨(refName.text, sha), Option.bind_eq_some_iff.2 ?_, rfl⟩
    refine
      ⟨refName.text ++ '/' :: (Entry.bundle sha).name,
        relativeKey_eq_some.2 ?_,
        parseBundleKey_eq_some.2 ⟨refName, rfl, listable, rfl⟩⟩
    rw [bundleKey_eq]
    rfl

/-- What `collectBundles` returns. -/
def advertised
    (bucketPrefix : Option Text)
    (world : World) : List ListedRef :=
  (((world.listing (prefixText bucketPrefix)).filterMap fun entry =>
      if (hiddenKeys bucketPrefix world).contains entry.key then none
      else
        ((relativeKey bucketPrefix entry.key).bind parseBundleKey).map
          fun found => (entry.lastModified, found)
    ).insertionSort fun left right => right.1 ≤ left.1).map
    fun entry => ⟨entry.2.2, entry.2.1⟩

theorem run_collectBundles (world : World) :
    run answer (collectBundles bucketPrefix) world =
      (.ok (advertised bucketPrefix world), world) := by
  unfold collectBundles
  rw [run_bind_ok (Store.run_list _ _)]
  cases listed : world.listing (prefixText bucketPrefix) with
  | nil =>
      simp [advertised, listed]
  | cons entry rest =>
      simp only [List.isEmpty_cons, Bool.false_eq_true, if_false]
      rw [run_bind_ok (run_tombstonedBundleKeys world), advertised, listed]
      rfl

/-- Up to order, the lines are the decoded keys. -/
theorem advertised_perm (world : World) :
    (advertised bucketPrefix world).Perm
      (((world.listing (prefixText bucketPrefix)).map
        ObjectMeta.key).filterMap
          (decodeLine bucketPrefix (hiddenKeys bucketPrefix world))) := by
  unfold advertised
  apply ((List.perm_insertionSort _ _).map _).trans
  rw [List.map_filterMap, List.filterMap_map]
  apply List.Perm.of_eq
  apply List.filterMap_congr
  intro entry _
  unfold decodeLine
  simp only [Function.comp_apply]
  split
  · rfl
  · rw [Option.map_map]
    rfl

theorem advertised_nodup (world : World) :
    (advertised bucketPrefix world).Nodup := by
  apply (advertised_perm world).nodup_iff.2
  apply List.Nodup.filterMap _ (World.listing_keys_nodup _)
  intro key other line decoded same
  rcases decodeLine_eq_some.1 decoded with ⟨refName, path, -, rfl, -⟩
  rcases decodeLine_eq_some.1 same with ⟨refName', path', -, rfl, -⟩
  rw [RefName.ext (path.symm.trans path')]

/-- The lines are the visible bundles of listable references. -/
theorem mem_advertised
    {world : World}
    {refName : RefName}
    {sha : Sha40} :
    ⟨sha, refName.text⟩ ∈ advertised bucketPrefix world ↔
      refName.Listable ∧ world.Visible bucketPrefix refName sha := by
  rw [(advertised_perm world).mem_iff, List.mem_filterMap]
  unfold World.Visible World.slot?
  rw [← bundleKey_mem_hiddenKeys, bundleKey_eq]
  constructor
  · rintro ⟨key, member, decoded⟩
    rcases decodeLine_eq_some.1 decoded with
      ⟨other, path, listable, rfl, shown⟩
    have same : refName = other := RefName.ext path
    subst same
    rcases List.mem_map.1 member with ⟨entry, listed, sameKey⟩
    rcases World.mem_listing.1 listed with ⟨-, object, found, -⟩
    rw [sameKey, bundleKey_eq] at found
    rw [bundleKey_eq] at shown
    exact ⟨listable, by simp [World.body?, found], shown⟩
  · rintro ⟨listable, present, shown⟩
    refine
      ⟨bundleKey bucketPrefix refName sha, List.mem_map.2 ?_,
        decodeLine_eq_some.2
          ⟨refName, rfl, listable, rfl, by rw [bundleKey_eq]; exact shown⟩⟩
    apply World.exists_mem_listing.2
    rw [bundleKey_eq]
    constructor
    · exact prefixText_prefix_key _
    · simpa [World.body?] using present

/-! ## The lines of one reference -/

/-- The lines `list` prints for a reference. -/
def linesOf
    (bucketPrefix : Option Text)
    (world : World)
    (refName : RefName) : List ListedRef :=
  (advertised bucketPrefix world).filter fun line =>
    line.refPath = refName.text

theorem mem_linesOf
    {world : World}
    {refName : RefName}
    {line : ListedRef} :
    line ∈ linesOf bucketPrefix world refName ↔
      line.refPath = refName.text ∧ refName.Listable ∧
        world.Visible bucketPrefix refName line.sha := by
  unfold linesOf
  rw [List.mem_filter, decide_eq_true_iff]
  rcases line with ⟨sha, refPath⟩
  constructor
  · rintro ⟨member, rfl⟩
    exact ⟨rfl, mem_advertised.1 member⟩
  · rintro ⟨rfl, shown⟩
    exact ⟨mem_advertised.2 shown, rfl⟩

theorem linesOf_eq_nil_iff
    {world : World}
    {refName : RefName} :
    linesOf bucketPrefix world refName = [] ↔
      ∀ sha,
        refName.Listable → ¬ world.Visible bucketPrefix refName sha := by
  rw [List.eq_nil_iff_forall_not_mem]
  constructor
  · intro none sha listable visible
    exact
      none ⟨sha, refName.text⟩ (mem_linesOf.2 ⟨rfl, listable, visible⟩)
  · intro hidden line member
    rcases mem_linesOf.1 member with ⟨-, listable, visible⟩
    exact hidden line.sha listable visible

/-- There is exactly one line if exactly one bundle is visible. -/
theorem linesOf_eq_singleton_iff
    {world : World}
    {refName : RefName}
    {sha : Sha40} :
    linesOf bucketPrefix world refName = [⟨sha, refName.text⟩] ↔
      refName.Listable ∧
        ∀ other,
          world.Visible bucketPrefix refName other ↔ other = sha := by
  constructor
  · intro single
    have only (line : ListedRef) :
        line ∈ linesOf bucketPrefix world refName ↔
          line = ⟨sha, refName.text⟩ := by
      rw [single, List.mem_singleton]
    have own := mem_linesOf.1 ((only ⟨sha, refName.text⟩).2 rfl)
    refine ⟨own.2.1, ?_⟩
    intro other
    have line := only ⟨other, refName.text⟩
    rw [mem_linesOf] at line
    simpa [own.2.1] using line
  · rintro ⟨listable, only⟩
    apply List.perm_singleton.1
    apply
      (List.perm_ext_iff_of_nodup ((advertised_nodup world).filter _)
        (List.nodup_singleton _)).2
    intro line
    change line ∈ linesOf bucketPrefix world refName ↔ _
    rw [mem_linesOf, only, List.mem_singleton]
    rcases line with ⟨found, refPath⟩
    simp only [ListedRef.mk.injEq]
    constructor
    · rintro ⟨rfl, -, rfl⟩
      exact ⟨rfl, rfl⟩
    · rintro ⟨rfl, rfl⟩
      exact ⟨rfl, listable, rfl⟩

/-- `list` prints these lines for a reference. -/
def Lists
    (bucketPrefix : Option Text)
    (world : World)
    (refName : RefName)
    (lines : List ListedRef) : Prop :=
  ∃ all,
    (run answer (collectBundles bucketPrefix) world).1 = .ok all ∧
      (all.filter fun line => line.refPath = refName.text) = lines

theorem lists_iff
    {world : World}
    {refName : RefName}
    {lines : List ListedRef} :
    Lists bucketPrefix world refName lines ↔
      linesOf bucketPrefix world refName = lines := by
  unfold Lists linesOf
  simp [run_collectBundles]

end GitRemoteObjectStore.Bundle
