import Mathlib.Data.List.Sort
import GitRemoteObjectStore.Engines
import GitRemoteObjectStore.Gc

/-!
# `doctor`

`doctor` lists everything below the prefix once, groups the listing into
references, and then repairs: of several bundles of one reference the
operator chooses the one to keep, a `HEAD` that names nothing is set anew,
and stale locks are deleted.  What it prints is left out.
-/

namespace GitRemoteObjectStore.Doctor

open CallProgram Prog Separated

/-! ## The snapshot -/

/-- One bundle object listed under a reference. -/
structure BundleEntry where
  sha : Sha40
  key : Text
  lastModified : Int
deriving DecidableEq

/-- A `<…>.bundle` object whose stem is not an object name. -/
structure MalformedBundleKey where
  refPath : Text
  key : Text
deriving DecidableEq

/-- What is listed under one reference path. -/
structure RefSnapshot where
  isProtected : Bool
  bundles : List BundleEntry
  hasChain : Bool

/-- `RefSnapshot::default()` -/
def RefSnapshot.empty : RefSnapshot :=
  ⟨false, [], false⟩

def RefSnapshot.hasBranchData (found : RefSnapshot) : Bool :=
  !found.bundles.isEmpty || found.hasChain

/-- The whole repository; the references are a map from their paths. -/
structure RepoSnapshot where
  head : Option Text
  refs : AList fun _ : Text => RefSnapshot
  malformedBundleKeys : List MalformedBundleKey

/-- `RepoSnapshot::default()` -/
def RepoSnapshot.empty : RepoSnapshot :=
  ⟨none, ∅, []⟩

namespace RepoSnapshot

variable (snapshot : RepoSnapshot)

def isHeadValid : Bool :=
  match snapshot.head.bind snapshot.refs.lookup with
  | some found => found.hasBranchData
  | none => false

/-- `refs.entry(ref_path).or_default()`, changed. -/
def entry
    (refPath : Text)
    (change : RefSnapshot → RefSnapshot) : RepoSnapshot :=
  { snapshot with
    refs :=
      snapshot.refs.insert refPath
        (change ((snapshot.refs.lookup refPath).getD .empty)) }

/-- The reference paths in the order the map is walked. -/
def refPaths : List Text :=
  snapshot.refs.keys.insertionSort fun left right => left ≤ right

end RepoSnapshot

/-- `*.lock` -/
def isLockKey (key : Text) : Bool :=
  (lit ".lock").isSuffixOf key

/-- Entries that are neither locks nor protection markers. -/
def hasBranchData (entries : List ObjectMeta) : Bool :=
  entries.any fun entry =>
    let last :=
      match rsplitOnce '/' entry.key with
      | some (_, last) => last
      | none => entry.key
    !isLockKey entry.key && last != lit "PROTECTED#"

/-- `gc/…`, `lfs/…` and `packs/…` -/
def isBookkeepingDir (relative : Text) : Bool :=
  [lit "gc/", lit "lfs/", lit "packs/"].any fun directory =>
    directory.isPrefixOf relative

/-- `HEAD` as text, trimmed, unless nothing is left of it. -/
def headOf (body : Body) : Option Text :=
  (body.utf8?.map trim).filter fun text => text ≠ []

/-! ## Answers and errors -/

inductive StaleReason where
  | deleted
  | residueOnly

/-- The failures of `doctor`. -/
inductive ManageError where
  | store (error : ObjectStoreError)
  | staleSnapshot (entity : Text) (reason : StaleReason)
  | internal (message : String)
  | cancelled
  | io

/--
The answers of the operator.  A run asks each question at most once for a
reference, so they are functions of the reference.
-/
structure Prompter where
  select : Text → Except ManageError Nat
  confirm : Text → Except ManageError Bool
  selectHead : Except ManageError Nat

/-- The options of a run, its lock TTL resolved. -/
structure DoctorOpts where
  deleteBundle : Bool
  lockTtl : Int
  deleteStaleLocks : Bool
  engine : StorageEngine

variable [Platform]

/-! ## Analysis -/

/-- Slot one listed object into the snapshot. -/
def classifyInto
    (listPrefix : Text)
    (snapshot : RepoSnapshot)
    (object : ObjectMeta) : Program ManageError RepoSnapshot :=
  match stripPrefix listPrefix object.key with
  | none => return snapshot
  | some relative =>
      if relative = lit "HEAD" then do
        let body ← (Store.getBytes object.key).mapError .store
        return { snapshot with head := headOf body }
      else if isBookkeepingDir relative then return snapshot
      else
        match rsplitOnce '/' relative with
        | none => return snapshot
        | some (refPath, last) =>
            if isLockKey last || last = lit "repo.zip" then
              return snapshot
            else if last = lit "PROTECTED#" then
              return snapshot.entry refPath
                ({ · with isProtected := true })
            else
              match stripSuffix (lit ".bundle") last with
              | some stem =>
                  match Sha40.tryNew stem with
                  | some sha =>
                      return snapshot.entry refPath fun found =>
                        { found with
                          bundles :=
                            found.bundles ++
                              [⟨sha, object.key, object.lastModified⟩] }
                  | none =>
                      return { snapshot with
                        malformedBundleKeys :=
                          snapshot.malformedBundleKeys ++
                            [⟨refPath, object.key⟩] }
              | none =>
                  if last = lit "chain.json" then
                    return snapshot.entry refPath
                      ({ · with hasChain := true })
                  else return snapshot

/-- The prefix a listing prefix was made of. -/
def prefixOfListing (listPrefix : Text) : Option Text :=
  (stripSuffix ['/'] listPrefix).filter fun text => text ≠ []

/-- Group a listing, without the tombstoned bundles. -/
def analyzeObjects
    (objects : List ObjectMeta)
    (listPrefix : Text) : Program ManageError RepoSnapshot := do
  let hidden ←
    (tombstonedBundleKeys (prefixOfListing listPrefix)).mapError .store
  foldEach
    (fun snapshot object =>
      if hidden.contains object.key then return snapshot
      else classifyInto listPrefix snapshot object)
    .empty objects

/-! ## The audit of the packchain engine -/

/-- The chains of the listing; what cannot be read is left out. -/
def loadChains
    {ε : Type}
    (bucketPrefix : Option Text)
    (objects : List ObjectMeta) :
    Program ε (List (Text × ChainManifest)) :=
  foldEach
    (fun found entry =>
      match refPathFromChainKey (some (prefixText bucketPrefix))
          entry.key with
      | none => return found
      | some refPath =>
          if !Platform.isValidRefName refPath then return found
          else do
            match ← (Store.getBytes entry.key).attempt with
            | .error _ => return found
            | .ok body =>
                match ChainManifest.fromJsonBytes body with
                | .ok chain => return found ++ [(refPath, chain)]
                | .error _ => return found)
    [] (objects.filter fun entry => isChainJsonKey entry.key)

/-- The tombstones of the listing; what cannot be read is left out. -/
def loadTombstones
    {ε : Type}
    (bucketPrefix : Option Text)
    (objects : List ObjectMeta) : Program ε (List Tombstone) := do
  let _ ← nowUtc
  foldEach
    (fun found entry => do
      match ← (Store.getBytes entry.key).attempt with
      | .error _ => return found
      | .ok body =>
          match Tombstone.fromJsonBytes body with
          | .ok tombstone => return found ++ [tombstone]
          | .error _ => return found)
    []
    (objects.filter fun entry =>
      isTombstoneKey entry.key (prefixText bucketPrefix) &&
        (lit ".json").isSuffixOf entry.key)

/-- What the packchain section is rendered from. -/
def audit
    {ε : Type}
    (bucketPrefix : Option Text)
    (objects : List ObjectMeta) :
    Program ε (List (Text × ChainManifest) × List Tombstone) := do
  let chains ← loadChains bucketPrefix objects
  let tombstones ← loadTombstones bucketPrefix objects
  return (chains, tombstones)

/-- The packchain section, for packchain remotes only. -/
def maybeRenderPackchainSection
    {ε : Type}
    (bucketPrefix : Option Text)
    (opts : DoctorOpts)
    (objects : List ObjectMeta) :
    Program ε
      (Option (List (Text × ChainManifest) × List Tombstone)) :=
  match opts.engine with
  | .bundle => return none
  | .packchain => do
      let report ← audit bucketPrefix objects
      return some report

/-! ## Several bundles of one reference -/

/-- `<prefix>/<ref>_<uuid8>/<sha>.bundle` -/
def quarantineKey
    (bucketPrefix : Option Text)
    (refPath : Text)
    (runId : Component)
    (sha : Sha40) : Text :=
  join (some (prefixText bucketPrefix))
    ((refPath ++ '_' :: runId.text.take 8) ++
      '/' :: (sha.text ++ lit ".bundle"))

/-- `store.copy`, while nobody else acts. -/
def copy (source target : Text) : Program ObjectStoreError Unit := do
  let body ← Store.getBytes source
  Store.putBytes target body

def evictLosingBundle
    (bucketPrefix : Option Text)
    (opts : DoctorOpts)
    (refPath : Text)
    (losing : BundleEntry) : Program ManageError Unit :=
  if opts.deleteBundle then
    (deleteIdempotent losing.key).mapError .store
  else do
    let runId ← newUuid
    match ← (copy losing.key
        (quarantineKey bucketPrefix refPath runId losing.sha)).attempt with
    | .ok () => (deleteIdempotent losing.key).mapError .store
    | .error (.notFound _) => return ()
    | .error error => .fail (.store error)

/-- Keep the bundle the operator chooses and evict the others. -/
def fixMultipleBundles
    (bucketPrefix : Option Text)
    (opts : DoctorOpts)
    (prompter : Prompter)
    (snapshot : RepoSnapshot)
    (refPath : Text) : Program ManageError RepoSnapshot :=
  match snapshot.refs.lookup refPath with
  | none =>
      .fail (.internal
        ("fix_multiple_bundles called with ref " ++
          String.ofList refPath ++ " absent from snapshot"))
  | some refEntry => do
      let keepIdx ← Prog.ofExcept (prompter.select refPath)
      match refEntry.bundles[keepIdx]? with
      | none =>
          .fail (.internal
            ("prompter returned out-of-range index " ++
              toString keepIdx ++ " for " ++
              toString refEntry.bundles.length ++ " bundle(s)"))
      | some keeper => do
          let confirmed ← Prog.ofExcept (prompter.confirm refPath)
          if !confirmed then return snapshot
          else do
            match ← (Store.head keeper.key).attempt with
            | .error (.notFound _) =>
                .fail (.staleSnapshot refPath .deleted)
            | .error error => .fail (.store error)
            | .ok _ => do
                let keepers :=
                  refEntry.bundles.filter fun entry =>
                    entry.sha = keeper.sha
                let losers :=
                  refEntry.bundles.filter fun entry =>
                    entry.sha ≠ keeper.sha
                forEach (evictLosingBundle bucketPrefix opts refPath)
                  losers
                return { snapshot with
                  refs :=
                    snapshot.refs.insert refPath
                      { refEntry with bundles := keepers } }

/-! ## `HEAD` -/

/-- Set `HEAD` to the branch the operator chooses. -/
def fixHead
    (bucketPrefix : Option Text)
    (prompter : Prompter)
    (snapshot : RepoSnapshot) : Program ManageError RepoSnapshot :=
  let candidates :=
    snapshot.refPaths.filter fun refPath =>
      (lit "refs/heads/").isPrefixOf refPath &&
        match snapshot.refs.lookup refPath with
        | some found => found.hasBranchData
        | none => false
  if candidates.isEmpty then return snapshot
  else do
    let chosen ← Prog.ofExcept prompter.selectHead
    match candidates[chosen]? with
    | none =>
        .fail (.internal
          ("prompter returned out-of-range index " ++ toString chosen ++
            " for " ++ toString candidates.length ++
            " HEAD candidate(s)"))
    | some newHead => do
        let recheck ←
          (Store.list
            (join (some (prefixText bucketPrefix))
              (newHead ++ ['/']))).mapError .store
        if !hasBranchData recheck then
          .fail (.staleSnapshot newHead
            (if recheck.isEmpty then .deleted else .residueOnly))
        else do
          (Store.putBytes
            (join (some (prefixText bucketPrefix)) (lit "HEAD"))
            (.text newHead)).mapError .store
          return { snapshot with head := some newHead }

/-! ## Stale locks -/

/-- Whether a lock of that time is past the TTL. -/
def isStale (ttl now lastModified : Int) : Bool :=
  if now < lastModified then ttl = 0
  else ttl < now - lastModified

/-- The stale locks of a listing. -/
def scanStaleLocks
    (now ttl : Int)
    (objects : List ObjectMeta) : List Text :=
  (objects.filter fun entry =>
    isLockKey entry.key && isStale ttl now entry.lastModified).map
      ObjectMeta.key

inductive DeleteOutcome where
  | deleted
  | skippedNotStale
  | skippedDisappeared
  | skippedHeadError
  | deleteFailed

/-- Look again, and delete what is still stale. -/
def deleteStaleLockIfStillStale
    {ε : Type}
    (ttl : Int)
    (key : Text) : Program ε DeleteOutcome := do
  match ← (Store.head key).attempt with
  | .error (.notFound _) => return .skippedDisappeared
  | .error _ => return .skippedHeadError
  | .ok found => do
      let now ← nowUtc
      if !isStale ttl now found.lastModified then
        return .skippedNotStale
      else
        match ← (Store.delete key).attempt with
        | .ok () => return .deleted
        | .error _ => return .deleteFailed

def listAndHandleStaleLocks
    {ε : Type}
    (opts : DoctorOpts)
    (objects : List ObjectMeta) : Program ε Unit := do
  let now ← nowUtc
  let stale := scanStaleLocks now opts.lockTtl objects
  if stale.isEmpty then return ()
  else if !opts.deleteStaleLocks then return ()
  else
    forEach
      (fun key => do
        let _ ← deleteStaleLockIfStillStale opts.lockTtl key
        return ())
      stale

/-! ## A run -/

/-- The references with several bundles. -/
def dupRefs (snapshot : RepoSnapshot) : List Text :=
  snapshot.refPaths.filter fun refPath =>
    match snapshot.refs.lookup refPath with
    | some found => 1 < found.bundles.length
    | none => false

/-- The fixers, one after the other. -/
def fixAll
    (bucketPrefix : Option Text)
    (opts : DoctorOpts)
    (prompter : Prompter)
    (objects : List ObjectMeta)
    (snapshot : RepoSnapshot) : Program ManageError Unit := do
  let snapshot ←
    foldEach (fixMultipleBundles bucketPrefix opts prompter) snapshot
      (dupRefs snapshot)
  let _ ←
    if !snapshot.isHeadValid then
      fixHead bucketPrefix prompter snapshot
    else pure snapshot
  listAndHandleStaleLocks opts objects

/-- `doctor` -/
def runInto
    (bucketPrefix : Option Text)
    (opts : DoctorOpts)
    (prompter : Prompter) : Program ManageError Unit := do
  let listPrefix := join (some (prefixText bucketPrefix)) []
  let objects ← (Store.list listPrefix).mapError .store
  let snapshot ← analyzeObjects objects listPrefix
  let _ ← maybeRenderPackchainSection bucketPrefix opts objects
  fixAll bucketPrefix opts prompter objects snapshot

end GitRemoteObjectStore.Doctor
