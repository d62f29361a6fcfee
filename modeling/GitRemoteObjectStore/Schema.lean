import Mathlib.Algebra.GroupWithZero.Nat
import Mathlib.Data.Char
import Mathlib.Data.List.Basic
import Mathlib.Data.List.Infix
import Mathlib.Data.List.Lex

/-!
# On-bucket schemas

The values the remote helper stores: object names, chain manifests, path
indexes and the two kinds of tombstone.  Text is the list of its characters.
A JSON body is represented by the value it parses to, so that decoding what
was encoded gives it back and decoding any other body is a parse error; an
RFC 3339 field is the instant it parses to, if it parses.
-/

namespace GitRemoteObjectStore

/-- A `str`, as the list of its characters. -/
abbrev Text := List Char

/-- Texts are equal where their characters are. -/
instance : LawfulBEq Text :=
  inferInstance

/-- The characters of a string literal, kept folded. -/
@[irreducible]
def lit (literal : String) : Text :=
  literal.toList

theorem lit_eq (literal : String) : lit literal = literal.toList := by
  unfold lit
  rfl

/-- One hour; instants and durations are in nanoseconds. -/
def hour : Int := 3600000000000

/-! ## Object names -/

/-- `0-9` or `a-f`. -/
def isLowerHex (character : Char) : Bool :=
  ('0' ≤ character && character ≤ '9') ||
    ('a' ≤ character && character ≤ 'f')

/-- Exactly 40 lowercase hex characters. -/
def isValidBundleStem (stem : Text) : Bool :=
  stem.length == 40 && stem.all isLowerHex

/-- A 40-character lowercase-hex SHA-1. -/
structure Sha40 where
  text : Text
  valid : isValidBundleStem text = true
deriving DecidableEq

/-- A git object id; `gix` prints it as the 40 characters of a `Sha40`. -/
abbrev Sha := Sha40

@[ext]
theorem Sha40.ext
    {left right : Sha40}
    (equal : left.text = right.text) :
    left = right := by
  cases left
  cases right
  cases equal
  rfl

/-- Validate a text and wrap it. -/
def Sha40.tryNew (text : Text) : Option Sha40 :=
  if valid : isValidBundleStem text = true then some ⟨text, valid⟩
  else none

@[simp]
theorem Sha40.tryNew_text (sha : Sha40) :
    Sha40.tryNew sha.text = some sha := by
  simp [Sha40.tryNew, sha.valid]

theorem Sha40.text_of_tryNew
    {text : Text}
    {sha : Sha40}
    (parsed : Sha40.tryNew text = some sha) :
    sha.text = text := by
  unfold Sha40.tryNew at parsed
  split at parsed
  · cases parsed
    rfl
  · cases parsed

theorem Sha40.length_text (sha : Sha40) : sha.text.length = 40 := by
  have valid := sha.valid
  simp only [isValidBundleStem, Bool.and_eq_true, beq_iff_eq] at valid
  exact valid.1

theorem isLowerHex_ne_slash
    {character : Char}
    (hex : isLowerHex character = true) :
    character ≠ '/' := by
  rintro rfl
  simp [isLowerHex] at hex

theorem Sha40.no_slash (sha : Sha40) : '/' ∉ sha.text := by
  intro member
  have valid := sha.valid
  simp only [isValidBundleStem, Bool.and_eq_true, List.all_eq_true] at valid
  exact isLowerHex_ne_slash (valid.2 '/' member) rfl

/-! ## Chain manifest and path index -/

/-- One entry of `ChainManifest.segments`, newest first. -/
structure ChainSegment where
  sha : Sha40
  parentSha : Option Sha40
  pack : Text
  bytes : Nat
deriving DecidableEq

/-- `chain.json`. -/
structure ChainManifest where
  v : Nat
  tip : Sha40
  fullAt : Sha40
  segments : List ChainSegment
deriving DecidableEq

/-- The `chain.json` version this build reads and writes. -/
def ChainManifest.schemaVersion : Nat := 1

/-- A blob, or a directory with its named entries. -/
inductive PathNode where
  | blob (sha : Sha40)
  | tree (entries : List (Text × PathNode))

/-- `path-index.json`. -/
structure PathIndex where
  v : Nat
  tip : Sha40
  tree : List (Text × PathNode)

/-- The `path-index.json` version this build reads and writes. -/
def PathIndex.schemaVersion : Nat := 2

/-! ## Tombstones -/

/-- `gc/tombstones-<run_id>-<rfc3339>.json`: one mark phase's orphans. -/
structure Tombstone where
  v : Nat
  runId : Text
  markedAt : Option Int
  orphanPacks : List Sha40
deriving DecidableEq

/-- `gc/baseline-tomb-<uuid>.json`: one superseded baseline bundle. -/
structure BaselineTombstone where
  v : Nat
  markedAt : Option Int
  refName : Text
  sha : Sha40
deriving DecidableEq

/-- The version both tombstone parsers accept. -/
def tombstoneSchemaVersion : Nat := 1

/-! ## Object bodies and their decoders -/

/-- An object body, by what it decodes to. -/
inductive Body where
  | text (content : Text)
  | file (content : List UInt8)
  | chain (manifest : ChainManifest)
  | pathIndex (index : PathIndex)
  | tombstone (record : Tombstone)
  | baselineTombstone (record : BaselineTombstone)

/-- A listing entry. -/
structure ObjectMeta where
  key : Text
  lastModified : Int
deriving DecidableEq

/-- Failures of the object store. -/
inductive ObjectStoreError where
  | notFound (key : Text)
  | accessDenied (key : Text)
  | preconditionFailed (key : Text)
  | conflict (key : Text)
  | rangeNotSatisfiable (key : Text) (start stop : Nat)
  | network
  | other
deriving DecidableEq

/-- Failures of the local git repository. -/
inductive GitError where
  | findObject
  | peelToKind
  | tagChainCycle (oid : Sha)
  | bundle
  | mergeBase
  | other
deriving DecidableEq

/-- `?engine=` -/
inductive StorageEngine where
  | bundle
  | packchain
deriving DecidableEq

/-- Failures of the packchain engine. -/
inductive PackchainError where
  | unsupportedSchemaVersion (found expected : Nat)
  | parseJson
  | malformedPackEntry (offset : Nat) (reason : Text)
  | malformedDelta (reason : Text)
  | decompress (offset : Nat)
  | deltaTooDeep (max : Nat)
  | contentHashMismatch (expected actual : Sha)
  | chainAbsent (refName : Text)
  | pathIndexAbsent (refName : Text)
  | transientChainPathIndexMismatch
      (refName : Text) (chainTip pathIndexTip : Sha)
  | wrongEngine (found : StorageEngine)
  | invalidRefName (name : Text)
  | malformedPath (path reason : Text)
  | pathNotFound (refName path : Text)
  | pathNotABlob (path : Text)
  | blobNotInChain (sha : Sha) (path : Text)
  | invalidPath (bytes : List UInt8)
  | treeCycle (oid : Sha)
  | packBuild
  | packIndexWrite
  | packMissing (key : Text)
  | baselineMissing (key : Text)
  | concurrentGcRetriesExhausted (lastMissingKey : Text) (attempts : Nat)
  | git (error : GitError)
  | store (error : ObjectStoreError)
  | io
deriving DecidableEq

/-- Parse `chain.json`, checking its version. -/
def ChainManifest.fromJsonBytes :
    Body → Except PackchainError ChainManifest
  | .chain manifest =>
      if manifest.v ≠ ChainManifest.schemaVersion then
        .error (.unsupportedSchemaVersion manifest.v
          ChainManifest.schemaVersion)
      else .ok manifest
  | _ => .error .parseJson

/-- The version field of a JSON body. -/
def Body.version? : Body → Option Nat
  | .chain manifest => some manifest.v
  | .pathIndex index => some index.v
  | .tombstone record => some record.v
  | .baselineTombstone record => some record.v
  | _ => none

/-- Parse `path-index.json`, looking at its version first. -/
def PathIndex.fromJsonBytes (body : Body) :
    Except PackchainError PathIndex :=
  match body.version? with
  | none => .error .parseJson
  | some found =>
      if found ≠ PathIndex.schemaVersion then
        .error (.unsupportedSchemaVersion found PathIndex.schemaVersion)
      else
        match body with
        | .pathIndex index => .ok index
        | _ => .error .parseJson

/-- Shared version check of the two tombstone parsers. -/
def checkTombstoneSchemaVersion (found : Nat) :
    Except PackchainError Unit :=
  if found = tombstoneSchemaVersion then .ok ()
  else .error (.unsupportedSchemaVersion found tombstoneSchemaVersion)

/-- Parse a pack tombstone, checking its version. -/
def Tombstone.fromJsonBytes : Body → Except PackchainError Tombstone
  | .tombstone record => do
      checkTombstoneSchemaVersion record.v
      return record
  | _ => .error .parseJson

/-- Parse a baseline tombstone, checking its version. -/
def BaselineTombstone.fromJsonBytes :
    Body → Except PackchainError BaselineTombstone
  | .baselineTombstone record => do
      checkTombstoneSchemaVersion record.v
      return record
  | _ => .error .parseJson

theorem ChainManifest.fromJsonBytes_ok
    {body : Body}
    {manifest : ChainManifest} :
    ChainManifest.fromJsonBytes body = .ok manifest ↔
      body = .chain manifest ∧
        manifest.v = ChainManifest.schemaVersion := by
  cases body with
  | chain found =>
      by_cases version : found.v = ChainManifest.schemaVersion
      · simp only [fromJsonBytes, version, ne_eq, not_true_eq_false,
          if_false, Except.ok.injEq, Body.chain.injEq]
        constructor
        · rintro rfl
          exact ⟨rfl, version⟩
        · exact fun parsed => parsed.1
      · simp only [fromJsonBytes, ne_eq, version, not_false_eq_true,
          if_true, reduceCtorEq, Body.chain.injEq, false_iff]
        rintro ⟨rfl, sameVersion⟩
        exact version sameVersion
  | _ => simp [fromJsonBytes]

theorem Tombstone.fromJsonBytes_ok
    {body : Body}
    {record : Tombstone} :
    Tombstone.fromJsonBytes body = .ok record ↔
      body = .tombstone record ∧ record.v = tombstoneSchemaVersion := by
  cases body with
  | tombstone found =>
      by_cases version : found.v = tombstoneSchemaVersion
      · simp only [fromJsonBytes, checkTombstoneSchemaVersion, version,
          if_true, bind, Except.bind, pure, Except.pure, Except.ok.injEq,
          Body.tombstone.injEq]
        constructor
        · rintro rfl
          exact ⟨rfl, version⟩
        · exact fun parsed => parsed.1
      · simp only [fromJsonBytes, checkTombstoneSchemaVersion, version,
          if_false, bind, Except.bind, reduceCtorEq,
          Body.tombstone.injEq, false_iff]
        rintro ⟨rfl, sameVersion⟩
        exact version sameVersion
  | _ => simp [fromJsonBytes]

theorem BaselineTombstone.fromJsonBytes_ok
    {body : Body}
    {record : BaselineTombstone} :
    BaselineTombstone.fromJsonBytes body = .ok record ↔
      body = .baselineTombstone record ∧
        record.v = tombstoneSchemaVersion := by
  cases body with
  | baselineTombstone found =>
      by_cases version : found.v = tombstoneSchemaVersion
      · simp only [fromJsonBytes, checkTombstoneSchemaVersion, version,
          if_true, bind, Except.bind, pure, Except.pure, Except.ok.injEq,
          Body.baselineTombstone.injEq]
        constructor
        · rintro rfl
          exact ⟨rfl, version⟩
        · exact fun parsed => parsed.1
      · simp only [fromJsonBytes, checkTombstoneSchemaVersion, version,
          if_false, bind, Except.bind, reduceCtorEq,
          Body.baselineTombstone.injEq, false_iff]
        rintro ⟨rfl, sameVersion⟩
        exact version sameVersion
  | _ => simp [fromJsonBytes]

end GitRemoteObjectStore
