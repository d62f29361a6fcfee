import GitRemoteObjectStore.Fetch
import GitRemoteObjectStore.SlotKeys

/-!
# The keys of a pack

A segment names its pack by a path.  The downloads of a fetch and of a
compaction put the prefix in front of that path; a read and a collection
build the key from the content name in it; a retry compares content names
again.  They agree on `packs/<sha>.pack`, and on no other path the check of
a segment lets through.
-/

namespace GitRemoteObjectStore.PackKeys

open Separated
open Packchain
  (packShaFromFullKey segmentsReference chainReferencesPackKey)

variable
    {bucketPrefix : Option Text}
    {key pack : Text}
    {sha : Sha40}

/-! ## The helpers -/

theorem packKey_eq :
    packKey bucketPrefix sha =
      keyRoot bucketPrefix ++ packKey none sha := by
  simp [packKey, join_eq, keyRoot]

theorem packIdxKey_eq :
    packIdxKey bucketPrefix sha =
      keyRoot bucketPrefix ++ packIdxKey none sha := by
  simp [packIdxKey, join_eq, keyRoot]

/-- The two pack keys agree on one path only. -/
theorem packKeyFromRelative_eq_packKey_iff :
    packKeyFromRelative bucketPrefix pack = packKey bucketPrefix sha ↔
      pack = packKey none sha := by
  rw [packKeyFromRelative, join_eq, packKey_eq]
  exact List.append_right_inj _

theorem relativeKey_eq_some_iff {path : Text} :
    relativeKey bucketPrefix key = some path ↔
      key = keyRoot bucketPrefix ++ path := by
  cases bucketPrefix with
  | none => simp [relativeKey, keyRoot]
  | some text =>
      by_cases empty : text = []
      · simp [relativeKey, keyRoot, empty]
      · simp only [relativeKey, keyRoot, if_neg empty,
          Option.bind_eq_some_iff, stripPrefix_eq_some]
        constructor
        · rintro ⟨rest, rfl, rfl⟩
          rw [List.append_assoc]
        · intro whole
          exact ⟨'/' :: path, by simp [whole], rfl⟩

theorem tryNew_eq_some_iff {stem : Text} :
    Sha40.tryNew stem = some sha ↔ stem = sha.text := by
  constructor
  · exact fun accepted => (Sha40.text_of_tryNew accepted).symm
  · rintro rfl
    exact sha.tryNew_text

/-- The stem of a file name that ends in `.pack` or `.idx`. -/
theorem stem_eq_some_iff {file stem : Text} :
    (stripSuffix (lit ".pack") file).or (stripSuffix (lit ".idx") file) =
        some stem ↔
      file = stem ++ lit ".pack" ∨ file = stem ++ lit ".idx" := by
  rw [Option.or_eq_some_iff, stripSuffix_eq_some, stripSuffix_eq_some]
  constructor
  · rintro (pack | ⟨_, idx⟩)
    · exact Or.inl pack
    · exact Or.inr idx
  · rintro (pack | idx)
    · exact Or.inl pack
    · refine Or.inr ⟨?_, idx⟩
      -- No name has both endings.
      cases stripped : stripSuffix (lit ".pack") file with
      | none => rfl
      | some other =>
          rw [stripSuffix_eq_some, idx] at stripped
          have last := congrArg List.getLast? stripped
          simp [lit_eq] at last

/-- A full key has the content name of the pack or index it belongs to. -/
theorem packShaFromFullKey_eq_some_iff :
    packShaFromFullKey bucketPrefix key = some sha ↔
      key = packKey bucketPrefix sha ∨
        key = packIdxKey bucketPrefix sha := by
  have shape :
      packShaFromFullKey bucketPrefix key = some sha ↔
        ∃ path, relativeKey bucketPrefix key = some path ∧
          ∃ file, stripPrefix (lit "packs/") path = some file ∧
            ∃ stem,
              (stripSuffix (lit ".pack") file).or
                  (stripSuffix (lit ".idx") file) = some stem ∧
                Sha40.tryNew stem = some sha := by
    rw [packShaFromFullKey]
    simp only [Option.bind_eq_bind, Option.bind_eq_some_iff]
  simp only [shape, relativeKey_eq_some_iff, stripPrefix_eq_some,
    stem_eq_some_iff, tryNew_eq_some_iff, packKey, packIdxKey, join_eq]
  constructor
  · rintro ⟨_, rfl, _, rfl, _, pack | idx, rfl⟩
    · left
      rw [pack, List.append_assoc]
    · right
      rw [idx, List.append_assoc]
  · rintro (rfl | rfl)
    · exact
        ⟨_, rfl, sha.text ++ lit ".pack", List.append_assoc _ _ _,
          _, Or.inl rfl, rfl⟩
    · exact
        ⟨_, rfl, sha.text ++ lit ".idx", List.append_assoc _ _ _,
          _, Or.inr rfl, rfl⟩

theorem segmentPackSha_eq_ok_iff {segment : ChainSegment} :
    segmentPackSha segment = .ok sha ↔
      shaFromPackKey segment.pack = some sha := by
  rw [segmentPackSha]
  cases shaFromPackKey segment.pack with
  | none => simp
  | some other => simp

/-! ## What a retry compares -/

/-- Every pack path is one the check lets through. -/
def Accepted (segments : List ChainSegment) : Prop :=
  ∀ segment ∈ segments, ∃ sha, segmentPackSha segment = .ok sha

theorem segmentsReference_iff
    {missing : Sha40}
    {segments : List ChainSegment}
    (accepted : Accepted segments) :
    segmentsReference missing segments = .ok true ↔
      ∃ segment ∈ segments, segmentPackSha segment = .ok missing := by
  induction segments with
  | nil => simp [segmentsReference]
  | cons segment older hypothesis =>
      have rest := hypothesis fun other member =>
        accepted other (List.mem_cons_of_mem _ member)
      rcases accepted segment List.mem_cons_self with ⟨sha, named⟩
      rw [segmentsReference, named]
      dsimp only
      split
      next same =>
          subst same
          simp [named]
      next different =>
          rw [rest, List.exists_mem_cons_iff, named]
          simp [different]

/-- The keys a chain names are those its segments name. -/
def References
    (bucketPrefix : Option Text)
    (chain : ChainManifest) : Prop :=
  ∀ key,
    chainReferencesPackKey bucketPrefix chain key = .ok true ↔
      ∃ segment ∈ chain.segments,
        ∃ sha, segmentPackSha segment = .ok sha ∧
          (key = packKey bucketPrefix sha ∨
            key = packIdxKey bucketPrefix sha)

theorem references
    {chain : ChainManifest}
    (accepted : Accepted chain.segments) :
    References bucketPrefix chain := by
  intro key
  simp only [← packShaFromFullKey_eq_some_iff]
  rw [chainReferencesPackKey]
  cases packShaFromFullKey bucketPrefix key with
  | none => simp
  | some missing =>
      dsimp only
      rw [segmentsReference_iff accepted]
      constructor
      · rintro ⟨segment, member, named⟩
        exact ⟨segment, member, missing, named, rfl⟩
      · rintro ⟨segment, member, sha, named, same⟩
        cases same
        exact ⟨segment, member, named⟩

/-! ## Agreement -/

/-- An object right below `<prefix>/packs/`. -/
def UnderPacks (bucketPrefix : Option Text) (key : Text) : Prop :=
  ∃ name, '/' ∉ name ∧ key = join bucketPrefix (lit "packs/" ++ name)

theorem underPacks_packKey : UnderPacks bucketPrefix
    (packKey bucketPrefix sha) := by
  refine ⟨sha.text ++ lit ".pack", ?_, ?_⟩
  · simp [sha.no_slash, lit_eq]
  · rw [packKey, List.append_assoc]

/-- A fetch downloads the key that a read builds, and a retry knows it. -/
structure Agree
    (bucketPrefix : Option Text)
    (chain : ChainManifest) : Prop where
  same :
    ∀ segment ∈ chain.segments, ∀ sha,
      segmentPackSha segment = .ok sha →
      packKeyFromRelative bucketPrefix segment.pack =
        packKey bucketPrefix sha
  inside :
    ∀ segment ∈ chain.segments, ∀ sha,
      segmentPackSha segment = .ok sha →
      UnderPacks bucketPrefix
        (packKeyFromRelative bucketPrefix segment.pack)
  references : References bucketPrefix chain

/-- The path of a pack as the chain schema describes it. -/
def ChainSegment.Relative (segment : ChainSegment) : Prop :=
  ∃ sha : Sha40, segment.pack = lit "packs/" ++ sha.text ++ lit ".pack"

/-- The keys agree exactly for chains whose paths start at `packs/`. -/
theorem agree_iff
    (bucketPrefix : Option Text)
    {chain : ChainManifest}
    (accepted : Accepted chain.segments) :
    Agree bucketPrefix chain ↔
      ∀ segment ∈ chain.segments, ChainSegment.Relative segment := by
  constructor
  · intro agree segment member
    rcases accepted segment member with ⟨sha, named⟩
    exact
      ⟨sha, packKeyFromRelative_eq_packKey_iff.1
        (agree.same segment member sha named)⟩
  · intro relative
    have same :
        ∀ segment ∈ chain.segments, ∀ sha,
          segmentPackSha segment = .ok sha →
          packKeyFromRelative bucketPrefix segment.pack =
            packKey bucketPrefix sha := by
      intro segment member sha named
      rcases relative segment member with ⟨content, path⟩
      have plain : segment.pack = packKey none content := path
      rw [segmentPackSha_eq_ok_iff, plain, shaFromPackKey_packKey] at named
      cases named
      exact packKeyFromRelative_eq_packKey_iff.2 plain
    exact
      { same := same
        inside := by
          intro segment member sha named
          rw [same segment member sha named]
          exact underPacks_packKey
        references := references accepted }

/-! ## A plain path and one that escapes -/

/-- The object name of zeros. -/
def zeroSha : Sha40 :=
  ⟨List.replicate 40 '0', by decide⟩

/-- A chain of one segment with a given pack path. -/
def chainOf (path : Text) : ChainManifest where
  v := ChainManifest.schemaVersion
  tip := zeroSha
  fullAt := zeroSha
  segments := [⟨zeroSha, none, path, 0⟩]

theorem accepted_chainOf
    {path : Text}
    (named : shaFromPackKey path = some sha) :
    Accepted (chainOf path).segments := by
  intro segment member
  rw [chainOf, List.mem_singleton] at member
  subst member
  exact ⟨sha, segmentPackSha_eq_ok_iff.2 named⟩

theorem agree_iff_plain :
    Agree (some (lit "acme")) (chainOf (packKey none zeroSha)) := by
  have accepted : Accepted (chainOf (packKey none zeroSha)).segments :=
    accepted_chainOf (shaFromPackKey_packKey zeroSha)
  refine (agree_iff (some (lit "acme")) accepted).2 ?_
  intro segment member
  rw [chainOf, List.mem_singleton] at member
  subst member
  exact ⟨zeroSha, rfl⟩

/-- `evil/packs/<sha>.pack` -/
def escapingPath : Text :=
  lit "evil/packs/" ++ zeroSha.text ++ lit ".pack"

theorem not_agree_escaping :
    Accepted (chainOf escapingPath).segments ∧
      ¬ UnderPacks (some (lit "acme"))
        (packKeyFromRelative (some (lit "acme")) escapingPath) ∧
      ¬ Agree (some (lit "acme")) (chainOf escapingPath) := by
  have named : shaFromPackKey escapingPath = some zeroSha := by
    decide +kernel
  have outside :
      ¬ UnderPacks (some (lit "acme"))
        (packKeyFromRelative (some (lit "acme")) escapingPath) := by
    rintro ⟨name, _, escaped⟩
    have evil :
        (packKeyFromRelative (some (lit "acme")) escapingPath)[5]? =
          some 'e' := by
      decide +kernel
    have packs :
        (join (some (lit "acme")) (lit "packs/" ++ name))[5]? =
          some 'p' := by
      simp [join_eq, keyRoot, lit_eq]
    rw [← escaped, evil] at packs
    exact absurd packs (by decide)
  refine ⟨accepted_chainOf named, outside, ?_⟩
  intro agree
  exact outside
    (agree.inside ⟨zeroSha, none, escapingPath, 0⟩ List.mem_cons_self
      zeroSha (segmentPackSha_eq_ok_iff.2 named))

end GitRemoteObjectStore.PackKeys
