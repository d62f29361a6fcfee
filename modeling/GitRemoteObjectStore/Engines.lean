import GitRemoteObjectStore.ObjectStore

/-!
# Storage engines

The engine of a repository is named by its `FORMAT` object, which the first
push creates.  A client resolves its engine from it when it connects; where
there is none yet, from the remote URL.
-/

namespace GitRemoteObjectStore

open CallProgram Prog

namespace StorageEngine

/-- The name in `FORMAT` and in URLs. -/
def asStr : StorageEngine → Text
  | .bundle => lit "bundle"
  | .packchain => lit "packchain"

/-- Every engine this client recognises. -/
def all : List StorageEngine :=
  [.bundle, .packchain]

/-- Parse an engine name. -/
def fromName (name : Text) : Option StorageEngine :=
  all.find? fun engine => engine.asStr == name

theorem asStr_injective : Function.Injective asStr := by
  intro left right same
  have names : lit "bundle" ≠ lit "packchain" := by decide +kernel
  cases left with
  | bundle =>
      cases right with
      | bundle => rfl
      | packchain => exact absurd same names
  | packchain =>
      cases right with
      | bundle => exact absurd same.symm names
      | packchain => rfl

/-- Every engine's own name is read as that engine. -/
@[simp]
theorem fromName_asStr (engine : StorageEngine) :
    fromName engine.asStr = some engine := by
  cases engine <;> decide +kernel

end StorageEngine

/-- Which storage service a URL names. -/
inductive BackendKind where
  | s3
  | azure
deriving DecidableEq

/-- Why a client cannot connect. -/
inductive BackendError where
  | network
  | invalidCredentials (source : ObjectStoreError)
  | unknownStoredEngine (kind : BackendKind) (stored : Text)
  | engineMismatch
      (kind : BackendKind) (urlEngine storedEngine : StorageEngine)
deriving DecidableEq

/-- The characters with the Unicode property `White_Space`. -/
def isWhitespace (character : Char) : Bool :=
  let code := character.toNat
  (9 ≤ code && code ≤ 13) || code == 0x20 || code == 0x85 ||
    code == 0xA0 || code == 0x1680 || (0x2000 ≤ code && code ≤ 0x200A) ||
    code == 0x2028 || code == 0x2029 || code == 0x202F ||
    code == 0x205F || code == 0x3000

/-- `str::trim` -/
def trim (text : Text) : Text :=
  ((text.dropWhile isWhitespace).reverse.dropWhile isWhitespace).reverse

/-- A body as UTF-8.  Of a JSON document only its being one is kept. -/
def Body.utf8? : Body → Option Text
  | .text content => some content
  | .file content =>
      (String.fromUTF8? ⟨content.toArray⟩).map String.toList
  | .chain _ => some (lit "\x7b\x7d")
  | .pathIndex _ => some (lit "\x7b\x7d")
  | .tombstone _ => some (lit "\x7b\x7d")
  | .baselineTombstone _ => some (lit "\x7b\x7d")

/-- Check the engine of a URL against the one stored. -/
def resolveEngine
    (kind : BackendKind)
    (urlEngine : Option StorageEngine)
    (stored : Body) : Except BackendError StorageEngine :=
  match stored.utf8? with
  | none => .error (.invalidCredentials .other)
  | some text =>
      match StorageEngine.fromName (trim text) with
      | none => .error (.unknownStoredEngine kind (trim text))
      | some storedEngine =>
          match urlEngine with
          | none => .ok storedEngine
          | some urlEngine =>
              if urlEngine ≠ storedEngine then
                .error (.engineMismatch kind urlEngine storedEngine)
              else .ok storedEngine

/-- Read `FORMAT` and validate it against the engine of the URL. -/
def validateFormat
    (kind : BackendKind)
    (bucketPrefix : Option Text)
    (urlEngine : Option StorageEngine) :
    Program BackendError StorageEngine := do
  match ← (Store.getBytes (formatKey bucketPrefix)).attempt with
  | .ok body => Prog.ofExcept (resolveEngine kind urlEngine body)
  | .error (.notFound _) => return urlEngine.getD .bundle
  | .error .network => .fail .network
  | .error error => .fail (.invalidCredentials error)

end GitRemoteObjectStore
