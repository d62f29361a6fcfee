import GitRemoteObjectStore.Slots

/-!
# What the inspectors see in a slot's key

The source decides what an object is by looking at its key.  Here each
inspector and each listing prefix is evaluated at the key of an arbitrary
slot.
-/

namespace GitRemoteObjectStore

open Separated

variable [Platform] {bucketPrefix : Option Text}

/-! ## Listings -/

/-- The slots a listing of `<prefix>/<ref>/` returns. -/
def Slot.Under (refName : RefName) : Slot → Prop
  | .ref other _ =>
      other = refName ∨ refName.text ++ ['/'] <+: other.text
  | _ => False

theorem keyRoot_append_prefix_iff
    {beginning : Text}
    {slot : Slot} :
    keyRoot bucketPrefix ++ beginning <+: slot.key bucketPrefix ↔
      beginning <+: slot.path := by
  unfold Slot.key
  exact List.prefix_append_right_inj _

theorem prefixText_prefix_key (slot : Slot) :
    prefixText bucketPrefix <+: slot.key bucketPrefix := by
  cases bucketPrefix with
  | none => exact List.nil_prefix
  | some text =>
      by_cases empty : text = []
      · subst empty
        exact List.nil_prefix
      · refine ⟨'/' :: slot.path, ?_⟩
        simp [Slot.key, keyRoot, prefixText, empty]

theorem Slot.prefix_path_iff
    {slot : Slot}
    {directory : Text} :
    directory ++ ['/'] <+: slot.path ↔
      ∃ front,
        slot.directory = some front ∧
          (directory = front ∨ directory ++ ['/'] <+: front) := by
  unfold Slot.path
  cases found : slot.directory with
  | none =>
      simp only [reduceCtorEq, false_and, exists_false, iff_false]
      rintro ⟨rest, equal⟩
      exact slot.name_no_slash (equal ▸ by simp)
  | some front =>
      simp only [Option.some.injEq, exists_eq_left']
      exact separator_prefix_iff slot.name_no_slash

theorem refListingPrefix_prefix_iff
    {refName : RefName}
    {slot : Slot} :
    refListingPrefix bucketPrefix refName <+: slot.key bucketPrefix ↔
      slot.Under refName := by
  rw [refListingPrefix_eq, keyRoot_append_prefix_iff,
    Slot.prefix_path_iff]
  have outside
      {directory : Text}
      (noSlash : '/' ∉ directory)
      (different : refName.text ≠ directory) :
      ¬ ∃ front,
        some directory = some front ∧
          (refName.text = front ∨ refName.text ++ ['/'] <+: front) := by
    rintro ⟨front, found, same⟩
    cases found
    rcases same with same | ⟨rest, rfl⟩
    · exact different same
    · exact noSlash (by simp)
  cases slot with
  | ref other entry =>
      simp only [Slot.directory, Option.some.injEq, exists_eq_left',
        Slot.Under]
      constructor
      · rintro (same | nested)
        · exact Or.inl (RefName.ext same.symm)
        · exact Or.inr nested
      · rintro (rfl | nested)
        · exact Or.inl rfl
        · exact Or.inr nested
  | pack sha =>
      exact iff_of_false
        (outside (by decide +kernel) refName.ne_packs) (fun h => h)
  | idx sha =>
      exact iff_of_false
        (outside (by decide +kernel) refName.ne_packs) (fun h => h)
  | tombstone label =>
      exact iff_of_false
        (outside (by decide +kernel) refName.ne_gc) (fun h => h)
  | baselineTombstone runId =>
      exact iff_of_false
        (outside (by decide +kernel) refName.ne_gc) (fun h => h)
  | head => simp [Slot.directory, Slot.Under]
  | format => simp [Slot.directory, Slot.Under]

/-- A reference in the `refs/` namespace. -/
def RefName.UnderRefs (refName : RefName) : Prop :=
  lit "refs/" <+: refName.text

theorem refs_prefix_chain_iff {refName : RefName} :
    join bucketPrefix (lit "refs/") <+:
        (Slot.ref refName .chain).key bucketPrefix ↔
      refName.UnderRefs := by
  have split : lit "refs/" = lit "refs" ++ ['/'] := by decide +kernel
  rw [join_eq, keyRoot_append_prefix_iff, RefName.UnderRefs, split,
    Slot.prefix_path_iff]
  simp only [Slot.directory, Option.some.injEq, exists_eq_left']
  constructor
  · rintro (same | inside)
    · exact absurd same.symm
        (refName.ne_of_lowercase (by decide +kernel)
          ⟨'r', by decide +kernel⟩)
    · exact inside
  · exact Or.inr

theorem isBaselineTombstoneKey_slot (runId : Component) :
    isBaselineTombstoneKey
        ((Slot.baselineTombstone runId).key bucketPrefix)
        (prefixText bucketPrefix) = true := by
  rw [isBaselineTombstoneKey, List.isPrefixOf_iff_prefix,
    baselineTombstoneListingPrefix, join_eq, keyRoot_some_prefixText,
    keyRoot_append_prefix_iff]
  exact ⟨runId.text ++ lit ".json", by
    simp [Slot.path, Slot.directory, Slot.name, lit_eq]⟩

omit [Platform] in
theorem gcListingPrefix_of_isBaselineTombstoneKey
    {key : Text}
    (found :
      isBaselineTombstoneKey key (prefixText bucketPrefix) = true) :
    gcListingPrefix (prefixText bucketPrefix) <+: key := by
  rw [isBaselineTombstoneKey, List.isPrefixOf_iff_prefix,
    baselineTombstoneListingPrefix, join_eq] at found
  rw [gcListingPrefix, join_eq]
  refine List.IsPrefix.trans ?_ found
  exact (List.prefix_append_right_inj _).2
    ⟨lit "baseline-tomb-", by simp [lit_eq]⟩

/-! ## Last segments -/

@[simp]
theorem lastSegment_key (slot : Slot) :
    lastSegment '/' (slot.key bucketPrefix) = slot.name := by
  unfold Slot.key Slot.path
  cases found : slot.directory with
  | some directory =>
      simp only [← List.append_assoc]
      exact lastSegment_append _ slot.name_no_slash
  | none =>
      cases bucketPrefix with
      | none => exact lastSegment_of_not_mem slot.name_no_slash
      | some text =>
          by_cases empty : text = []
          · simp only [keyRoot, empty, if_true, List.nil_append]
            exact lastSegment_of_not_mem slot.name_no_slash
          · simp only [keyRoot, empty, if_false, List.append_assoc,
              List.singleton_append]
            exact lastSegment_append _ slot.name_no_slash

theorem rsplitOnce_ref_key (refName : RefName) (entry : Entry) :
    rsplitOnce '/' ((Slot.ref refName entry).key bucketPrefix) =
      some (keyRoot bucketPrefix ++ refName.text, entry.name) := by
  have shape :
      (Slot.ref refName entry).key bucketPrefix =
        (keyRoot bucketPrefix ++ refName.text) ++ '/' :: entry.name := by
    simp [Slot.key, Slot.path, Slot.directory, Slot.name]
  rw [shape]
  exact rsplitOnce_append _ entry.no_slash

/-- The object name of a bundle slot. -/
def Slot.bundleSha : Slot → Option Sha40
  | .ref _ (.bundle sha) => some sha
  | _ => none

theorem parseRemoteShaFromKey_slot (slot : Slot) :
    parseRemoteShaFromKey (slot.key bucketPrefix) = slot.bundleSha := by
  have foreign
      {name : Text}
      (differs :
        ∀ stem : Text, name ≠ stem ++ lit ".bundle") :
      stripSuffix (lit ".bundle") name = none := by
    cases found : stripSuffix (lit ".bundle") name with
    | none => rfl
    | some stem => exact absurd (stripSuffix_eq_some.1 found) (differs stem)
  have reversed
      {left right : Text}
      (equal : left = right) :
      left.reverse = right.reverse :=
    congrArg _ equal
  rw [parseRemoteShaFromKey, lastSegment_key]
  cases slot with
  | ref refName entry =>
      cases entry with
      | bundle sha =>
          have stem :
              stripSuffix (lit ".bundle") (Entry.bundle sha).name =
                some sha.text :=
            stripSuffix_eq_some.2 rfl
          simp [Slot.name, stem, Slot.bundleSha]
      | _ =>
          simp only [Slot.name, Slot.bundleSha]
          rw [foreign]
          · rfl
          · intro stem equal
            simpa [Entry.name, lit_eq] using reversed equal
  | _ =>
      simp only [Slot.name, Slot.bundleSha]
      rw [foreign]
      · rfl
      · intro stem equal
        simpa [lit_eq] using reversed equal

theorem isBundleCandidate_slot (slot : Slot) :
    isBundleCandidate (slot.key bucketPrefix) = slot.bundleSha.isSome := by
  rw [isBundleCandidate, parseRemoteShaFromKey_slot]

theorem entriesHaveProtectedMarker_of_mem
    {entries : List ObjectMeta}
    {entry : ObjectMeta}
    {refName : RefName}
    (member : entry ∈ entries)
    (marker : entry.key = protectedMarkerKey bucketPrefix refName) :
    entriesHaveProtectedMarker entries = true := by
  rw [entriesHaveProtectedMarker, List.any_eq_true]
  refine ⟨entry, member, ?_⟩
  rw [marker, protectedMarkerKey_eq, rsplitOnce_ref_key]
  simp [Entry.name]

/-! ## Advertised bundles -/

/-- A reference `list` can advertise: `refs/…/…`. -/
def RefName.Listable (refName : RefName) : Prop :=
  3 ≤ (refName.text.splitOn '/').length ∧
    (refName.text.splitOn '/').head? = some (lit "refs")

instance (refName : RefName) : Decidable refName.Listable :=
  inferInstanceAs (Decidable (_ ∧ _))

omit [Platform] in
theorem relativeKey_eq_some {key rel : Text} :
    relativeKey bucketPrefix key = some rel ↔
      key = keyRoot bucketPrefix ++ rel := by
  cases bucketPrefix with
  | none => simp [relativeKey, keyRoot]
  | some text =>
      by_cases empty : text = []
      · simp [relativeKey, keyRoot, empty]
      · simp [relativeKey, keyRoot, empty, Option.bind_eq_some_iff,
          stripPrefix_eq_some]

theorem parseBundleKey_eq_some
    {rel refPath : Text}
    {sha : Sha40} :
    parseBundleKey rel = some (refPath, sha) ↔
      ∃ refName : RefName,
        refName.text = refPath ∧ refName.Listable ∧
          rel = refPath ++ '/' :: (Entry.bundle sha).name := by
  constructor
  · intro parsed
    simp only [parseBundleKey] at parsed
    split at parsed
    · cases parsed
    next long =>
    split at parsed
    · cases parsed
    next first =>
    split at parsed
    · cases parsed
    next path last found =>
    split at parsed
    · cases parsed
    next stem parsedStem =>
    split at parsed
    next valid =>
      cases parsed
      rcases Option.bind_eq_some_iff.1 parsedStem with
        ⟨text, strip, parsedSha⟩
      have lastShape : last = (Entry.bundle sha).name := by
        rw [stripSuffix_eq_some.1 strip, Entry.name,
          Sha40.text_of_tryNew parsedSha]
      have slash : '/' ∈ rel := by
        unfold rsplitOnce at found
        split at found
        next member => exact member
        next => cases found
      rcases exists_last slash with ⟨front, tail, rfl, absent⟩
      rw [rsplitOnce_append front absent] at found
      cases found
      subst lastShape
      rw [splitOn_append_last _ absent] at long first
      refine ⟨⟨refPath, valid⟩, rfl, ⟨?_, ?_⟩, rfl⟩
      · simp only [List.length_append, List.length_singleton] at long
        show 3 ≤ (refPath.splitOn '/').length
        omega
      · show (refPath.splitOn '/').head? = some (lit "refs")
        rw [List.head?_append_of_ne_nil _
          (List.splitOn_ne_nil _ _)] at first
        exact not_not.1 first
    next => cases parsed
  · rintro ⟨refName, rfl, ⟨long, first⟩, rfl⟩
    have absent := (Entry.bundle sha).no_slash
    have stem :
        stripSuffix (lit ".bundle") (Entry.bundle sha).name =
          some sha.text :=
      stripSuffix_eq_some.2 rfl
    simp only [parseBundleKey]
    rw [splitOn_append_last _ absent, rsplitOnce_append _ absent,
      List.head?_append_of_ne_nil _ (List.splitOn_ne_nil _ _), first]
    simp [stem, refName.valid]
    omega

/-! ## Chain manifests and packs -/

theorem isChainJsonKey_chain (refName : RefName) :
    isChainJsonKey ((Slot.ref refName .chain).key bucketPrefix) = true := by
  rw [isChainJsonKey, List.isSuffixOf_iff_suffix]
  exact ⟨keyRoot bucketPrefix ++ refName.text, by
    simp [Slot.key, Slot.path, Slot.directory, Slot.name, Entry.name,
      lit_eq]⟩

omit [Platform] in
@[simp]
theorem shaFromPackKey_packKey (sha : Sha40) :
    shaFromPackKey (packKey none sha) = some sha := by
  have shape :
      packKey none sha =
        lit "packs" ++ '/' :: (sha.text ++ lit ".pack") := by
    simp [packKey, join, lit_eq]
  have absent : '/' ∉ sha.text ++ lit ".pack" := by
    simp [sha.no_slash, lit_eq]
  have stem :
      stripSuffix (lit ".pack") (sha.text ++ lit ".pack") =
        some sha.text :=
    stripSuffix_eq_some.2 rfl
  rw [shape, shaFromPackKey, rsplitOnce_append _ absent]
  simp [stem]

omit [Platform] in
theorem packKeyFromRelative_packKey (sha : Sha40) :
    packKeyFromRelative bucketPrefix (packKey none sha) =
      packKey bucketPrefix sha := by
  simp [packKeyFromRelative, packKey, join_eq, keyRoot]

end GitRemoteObjectStore
