import GitRemoteObjectStore.Schema
import GitRemoteObjectStore.Library.Separated

/-!
# Bucket keys

The key builders and inspectors of the source, and the statement that the
objects of one repository never share a key.  The statement goes through
`Slot`, the list of everything a repository stores: `Slot.key` is injective,
so two keys built by two builders are equal only when the builders and their
arguments are.

Validity of a reference name is decided by a library outside the repository.
Only one of its documented rules is used here: a name without a slash is all
uppercase letters and underscores.
-/

namespace GitRemoteObjectStore

open Separated

/-! ## Prefixes -/

/-- `join(prefix, suffix)`: an absent or empty prefix adds no slash. -/
def join (bucketPrefix : Option Text) (suffix : Text) : Text :=
  match bucketPrefix with
  | none => suffix
  | some text =>
      if text = [] then suffix
      else if suffix = [] then text ++ ['/']
      else text ++ '/' :: suffix

/-- What `join` puts in front of every suffix. -/
def keyRoot (bucketPrefix : Option Text) : Text :=
  match bucketPrefix with
  | none => []
  | some text => if text = [] then [] else text ++ ['/']

theorem join_eq (bucketPrefix : Option Text) (suffix : Text) :
    join bucketPrefix suffix = keyRoot bucketPrefix ++ suffix := by
  cases bucketPrefix with
  | none => rfl
  | some text =>
      unfold join keyRoot
      split
      · rfl
      · split
        · simp_all
        · simp

/-- `prefix.unwrap_or("")`. -/
def prefixText (bucketPrefix : Option Text) : Text :=
  bucketPrefix.getD []

/-- `(!prefix.is_empty()).then_some(prefix)`. -/
def prefixOpt (text : Text) : Option Text :=
  if text = [] then none else some text

@[simp]
theorem keyRoot_some_prefixText (bucketPrefix : Option Text) :
    keyRoot (some (prefixText bucketPrefix)) = keyRoot bucketPrefix := by
  cases bucketPrefix with
  | none => rfl
  | some text => rfl

theorem join_some_prefixText
    {bucketPrefix : Option Text} (suffix : Text) :
    join (some (prefixText bucketPrefix)) suffix =
      join bucketPrefix suffix := by
  simp [join_eq]

@[simp]
theorem keyRoot_prefixOpt (text : Text) :
    keyRoot (prefixOpt text) = keyRoot (some text) := by
  unfold prefixOpt
  split <;> simp_all [keyRoot]

/-! ## What comes from outside the repository -/

/-- A key component: a text without a slash. -/
structure Component where
  text : Text
  no_slash : '/' ∉ text
deriving DecidableEq

/--
The reference-name check, the identifiers of `Uuid::new_v4` and the RFC 3339
rendering of an instant.  The identifier drawn `n`-th is `uuid n`; they do
not repeat.
-/
class Platform where
  isValidRefName : Text → Bool
  slash_or_uppercase :
    ∀ name,
      isValidRefName name = true →
      '/' ∈ name ∨ ∀ c ∈ name, c.isUpper = true ∨ c = '_'
  uuid : Nat → Component
  uuid_injective : Function.Injective uuid
  rfc3339 : Int → Component

/--
A platform to run schedules on: it accepts every name under `refs/`, and its
identifiers are runs of one letter.
-/
@[reducible]
def Platform.simple : Platform where
  isValidRefName := fun name => (lit "refs/").isPrefixOf name
  slash_or_uppercase := by
    intro name valid
    rcases List.isPrefixOf_iff_prefix.1 valid with ⟨rest, rfl⟩
    exact Or.inl (by simp [lit_eq])
  uuid := fun count => ⟨List.replicate count 'u', by simp⟩
  uuid_injective := by
    intro left right equal
    have lengths := congrArg (fun name => name.text.length) equal
    simpa using lengths
  rfc3339 := fun _ => ⟨lit "1970-01-01T00:00:00Z", by simp [lit_eq]⟩

/-- A complete reference name. -/
structure RefName [Platform] where
  text : Text
  valid : Platform.isValidRefName text = true
deriving DecidableEq

/-- A reference to run schedules on. -/
@[reducible]
def RefName.main : @RefName .simple :=
  @RefName.mk .simple (lit "refs/heads/main") (by decide +kernel)

variable [Platform]

@[ext]
theorem RefName.ext
    {left right : RefName}
    (equal : left.text = right.text) :
    left = right := by
  cases left
  cases right
  cases equal
  rfl

/-- `RefName::new`, without the reason of a refusal. -/
def RefName.new (name : Text) : Option RefName :=
  if valid : Platform.isValidRefName name = true then some ⟨name, valid⟩
  else none

@[simp]
theorem RefName.new_text (refName : RefName) :
    RefName.new refName.text = some refName := by
  simp [RefName.new, refName.valid]

theorem RefName.text_of_new
    {name : Text}
    {refName : RefName}
    (parsed : RefName.new name = some refName) :
    refName.text = name := by
  unfold RefName.new at parsed
  split at parsed
  · cases parsed
    rfl
  · cases parsed

theorem RefName.ne_of_lowercase
    (refName : RefName)
    {name : Text}
    (noSlash : '/' ∉ name)
    (lowercase : ∃ c ∈ name, c.isUpper = false ∧ c ≠ '_') :
    refName.text ≠ name := by
  rintro rfl
  rcases lowercase with ⟨c, member, notUpper, notUnderscore⟩
  rcases Platform.slash_or_uppercase refName.text refName.valid with
    slash | upper
  · exact noSlash slash
  · rcases upper c member with isUpper | underscore
    · simp [notUpper] at isUpper
    · exact notUnderscore underscore

/-! ## Key builders -/

/-- `<prefix>/<ref>/` -/
def refListingPrefix
    (bucketPrefix : Option Text) (refName : RefName) : Text :=
  join bucketPrefix (refName.text ++ ['/'])

/-- `<prefix>/<ref>/LOCK#.lock` -/
def lockKey (bucketPrefix : Option Text) (refName : RefName) : Text :=
  refListingPrefix bucketPrefix refName ++ lit "LOCK#.lock"

/-- `<prefix>/<ref>/repo.zip` -/
def archiveKey (bucketPrefix : Option Text) (refName : RefName) : Text :=
  refListingPrefix bucketPrefix refName ++ lit "repo.zip"

/-- `<prefix>/<ref>/PROTECTED#` -/
def protectedMarkerKey
    (bucketPrefix : Option Text) (refName : RefName) : Text :=
  refListingPrefix bucketPrefix refName ++ lit "PROTECTED#"

/-- `<prefix>/<ref>/<sha>.bundle` -/
def bundleKey
    (bucketPrefix : Option Text) (refName : RefName) (sha : Sha40) : Text :=
  join bucketPrefix
    (refName.text ++ '/' :: (sha.text ++ lit ".bundle"))

/-- `<prefix>/<ref>/chain.json` -/
def chainKey (bucketPrefix : Option Text) (refName : RefName) : Text :=
  join bucketPrefix (refName.text ++ lit "/chain.json")

/-- `<prefix>/<ref>/path-index.json` -/
def pathIndexKey (bucketPrefix : Option Text) (refName : RefName) : Text :=
  join bucketPrefix (refName.text ++ lit "/path-index.json")

/-- `<prefix>/packs/<content-sha>.pack` -/
def packKey (bucketPrefix : Option Text) (contentSha : Sha40) : Text :=
  join bucketPrefix
    (lit "packs/" ++ contentSha.text ++ lit ".pack")

/-- `<prefix>/packs/<content-sha>.idx` -/
def packIdxKey (bucketPrefix : Option Text) (contentSha : Sha40) : Text :=
  join bucketPrefix
    (lit "packs/" ++ contentSha.text ++ lit ".idx")

/-- A `ChainSegment::pack` value under the prefix. -/
def packKeyFromRelative
    (bucketPrefix : Option Text) (relativePack : Text) : Text :=
  join bucketPrefix relativePack

/-- `<prefix>/HEAD` -/
def headKey (bucketPrefix : Option Text) : Text :=
  join bucketPrefix (lit "HEAD")

/-- `<prefix>/FORMAT` -/
def formatKey (bucketPrefix : Option Text) : Text :=
  join bucketPrefix (lit "FORMAT")

/-- `<prefix>/gc/` -/
def gcListingPrefix (text : Text) : Text :=
  join (some text) (lit "gc/")

/-- `<prefix>/gc/tombstones-<run_id>-<marked_at>.json` -/
def tombstoneKey (text : Text) (runId markedAt : Component) : Text :=
  join (some text)
    (lit "gc/tombstones-" ++ runId.text ++ '-' :: markedAt.text ++
      lit ".json")

/-- `<prefix>/gc/baseline-tomb-<run_id>.json` -/
def baselineTombstoneKey (text : Text) (runId : Component) : Text :=
  join (some text)
    (lit "gc/baseline-tomb-" ++ runId.text ++ lit ".json")

/-- `<prefix>/gc/baseline-tomb-` -/
def baselineTombstoneListingPrefix (bucketPrefix : Option Text) : Text :=
  join bucketPrefix (lit "gc/baseline-tomb-")

/-! ## Key inspectors -/

/-- A `PROTECTED#` marker among listing entries. -/
def entriesHaveProtectedMarker (entries : List ObjectMeta) : Bool :=
  entries.any fun entry =>
    match rsplitOnce '/' entry.key with
    | none => false
    | some (_, last) => last == lit "PROTECTED#"

/-- The stem of a `<…>/<sha>.bundle` key. -/
def parseRemoteShaFromKey (key : Text) : Option Sha :=
  (stripSuffix (lit ".bundle") (lastSegment '/' key)).bind Sha40.tryNew

/-- The last segment is `<sha>.bundle`. -/
def isBundleCandidate (key : Text) : Bool :=
  (parseRemoteShaFromKey key).isSome

/-- The key without the prefix and its slash. -/
def relativeKey
    (bucketPrefix : Option Text) (fullKey : Text) : Option Text :=
  match bucketPrefix with
  | none => some fullKey
  | some text =>
      if text = [] then some fullKey
      else (stripPrefix text fullKey).bind (stripPrefix ['/'])

/-- `refs/…/…/<sha>.bundle` as reference path and object name. -/
def parseBundleKey (relKey : Text) : Option (Text × Sha40) :=
  let segments := relKey.splitOn '/'
  if segments.length < 4 then none
  else if segments.head? ≠ some (lit "refs") then none
  else
    match rsplitOnce '/' relKey with
    | none => none
    | some (refPath, last) =>
        match (stripSuffix (lit ".bundle") last).bind Sha40.tryNew with
        | none => none
        | some sha =>
            if Platform.isValidRefName refPath then some (refPath, sha)
            else none

/-- `<…>/chain.json` -/
def isChainJsonKey (key : Text) : Bool :=
  (lit "/chain.json").isSuffixOf key

/-- The reference path of a `chain.json` key. -/
def refPathFromChainKey
    (bucketPrefix : Option Text) (key : Text) : Option Text :=
  match stripSuffix (lit "/chain.json") key with
  | none => none
  | some withoutSuffix => relativeKey bucketPrefix withoutSuffix

/-- The content name of a `[<prefix>/]packs/<sha>.pack` key. -/
def shaFromPackKey (pack : Text) : Option Sha40 :=
  match rsplitOnce '/' pack with
  | none => none
  | some (parent, basename) =>
      match stripSuffix (lit ".pack") basename with
      | none => none
      | some sha =>
          if parent ≠ lit "packs" ∧ ¬ lit "/packs" <:+ parent then
            none
          else Sha40.tryNew sha

/-- The pack a segment names, or the malformed entry. -/
def segmentPackSha (segment : ChainSegment) :
    Except PackchainError Sha40 :=
  match shaFromPackKey segment.pack with
  | some sha => .ok sha
  | none =>
      .error
        (.malformedPackEntry 0
          (lit "chain segment pack key `" ++ segment.pack ++
            lit "` is not of the form `[<prefix>/]packs/<sha>.pack`"))

/-- A pack tombstone key. -/
def isTombstoneKey (key text : Text) : Bool :=
  (join (some text) (lit "gc/tombstones-")).isPrefixOf key

/-- A baseline tombstone key. -/
def isBaselineTombstoneKey (key text : Text) : Bool :=
  (baselineTombstoneListingPrefix (some text)).isPrefixOf key

/-- The content name of a listed pack or index key. -/
def packShaFromListing (key : Text) : Option Sha40 :=
  let basename := lastSegment '/' key
  match (stripSuffix (lit ".pack") basename).or
      (stripSuffix (lit ".idx") basename) with
  | none => none
  | some sha => Sha40.tryNew sha

end GitRemoteObjectStore
