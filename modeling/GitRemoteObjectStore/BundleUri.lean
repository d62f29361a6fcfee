import Mathlib.Data.List.Sort
import GitRemoteObjectStore.RemoteUrl

/-!
# `bundle-uri`

The answer to `bundle-uri` is two lines for every reference with a chain, the
address of its baseline bundle and the bundle's name as creation token, and a
blank line.  What cannot be read or addressed is left out.
-/

namespace GitRemoteObjectStore.BundleUri

open CallProgram Prog Separated

structure BundleUriOpts where
  presignTtlSeconds : Option NonZeroU64

inductive BundleUriError where
  | packchain (error : PackchainError)
  | store (error : ObjectStoreError)
  | io

/-- What is answered for one reference. -/
structure BundleEntry where
  refPath : Text
  fullAt : Text
deriving DecidableEq

/-- No character that ends a key, or a path of a URL. -/
def isSafeForBundleUriEmission (refPath : Text) : Bool :=
  !refPath.any fun character => character ∈ lit "=#%&;,?"

/-- `<prefix>/<ref>/<full_at>.bundle` -/
def baselineKey (bucketPrefix : Option Text) (refPath fullAt : Text) : Text :=
  join bucketPrefix (refPath ++ '/' :: (fullAt ++ lit ".bundle"))

/-! ## Addresses -/

/-- `<scheme>://<host>[:port]` -/
def hostAuthority (endpoint : Url) : Text :=
  let host := endpoint.hostStr.getD []
  match endpoint.port with
  | some port =>
      endpoint.scheme ++ lit "://" ++ host ++ ':' :: (toString port).toList
  | none => endpoint.scheme ++ lit "://" ++ host

def canonicalBundleUrl (remote : RemoteUrl) (refPath fullAt : Text) : Text :=
  let bundleKey := baselineKey remote.bucketPrefix refPath fullAt
  let authority := hostAuthority remote.endpoint
  match remote with
  | .s3 _ _ _ .virtualHosted _ => authority ++ '/' :: bundleKey
  | .s3 _ bucket _ .pathStyle _ =>
      authority ++ '/' :: (bucket ++ '/' :: bundleKey)
  | .azure _ _ container _ .virtualHosted _ =>
      authority ++ '/' :: (container ++ '/' :: bundleKey)
  | .azure _ account container _ .pathStyle _ =>
      authority ++ '/' :: (account ++ '/' :: (container ++ '/' :: bundleKey))

/-- A signed address where one is asked for, else the plain one. -/
def bundleUrlForEmission
    (presignedGetUrl : Text → NonZeroU64 → Except ObjectStoreError Text)
    (remote : RemoteUrl)
    (refPath fullAt : Text)
    (opts : BundleUriOpts) : Except BundleUriError Text :=
  match opts.presignTtlSeconds with
  | none => .ok (canonicalBundleUrl remote refPath fullAt)
  | some ttl =>
      (presignedGetUrl (baselineKey remote.bucketPrefix refPath fullAt)
        ttl).mapError .store

/-! ## The answer -/

/-- Whether `bundle-uri` is advertised in a session. -/
def advertiseBundleUri (engine : StorageEngine) (remote : RemoteUrl) : Bool :=
  engine = .packchain && remote.flags.bundleUri

/-- The two lines of one entry. -/
def entryLines (entry : BundleEntry) (url : Text) : List Text :=
  [lit "bundle." ++ entry.refPath ++ lit ".uri=" ++ url,
    lit "bundle." ++ entry.refPath ++ lit ".creationToken=" ++ entry.fullAt]

variable [Platform]

/-- The references under `refs/heads/` with a chain, in order. -/
def collectEntries (text : Text) : Program PackchainError (List BundleEntry) := do
  let metas ←
    (Store.list (join (some text) (lit "refs/heads/"))).mapError .store
  let out ←
    foldEach
      (fun out entry =>
        if !isChainJsonKey entry.key then return out
        else
          match refPathFromChainKey (some text) entry.key with
          | none => return out
          | some refPath =>
              if !Platform.isValidRefName refPath then return out
              else if !isSafeForBundleUriEmission refPath then return out
              else do
                match ← (Store.getBytes entry.key).attempt with
                | .error _ => return out
                | .ok body =>
                    match ChainManifest.fromJsonBytes body with
                    | .ok chain =>
                        return out ++ [⟨refPath, chain.fullAt.text⟩]
                    | .error _ => return out)
      [] metas
  return out.insertionSort fun left right => left.refPath ≤ right.refPath

/-- What `bundle-uri` is answered with; writing it is left out. -/
def handleBundleUri
    (presignedGetUrl : Text → NonZeroU64 → Except ObjectStoreError Text)
    (remote : RemoteUrl)
    (opts : BundleUriOpts)
    (advertised : Bool) : Program BundleUriError Text :=
  if !advertised then return ['\n']
  else do
    let collected ←
      (collectEntries (prefixText remote.bucketPrefix)).attempt
    let entries :=
      match collected with
      | .ok entries => entries
      | .error _ => []
    let lines :=
      entries.flatMap fun entry =>
        match bundleUrlForEmission presignedGetUrl remote entry.refPath
            entry.fullAt opts with
        | .ok url => entryLines entry url
        | .error _ => []
    return terminated '\n' lines ++ ['\n']

end GitRemoteObjectStore.BundleUri
