import Mathlib.Data.List.Sort
import GitRemoteObjectStore.Lock

/-!
# Push and delete under the packchain engine

A reference is its `chain.json`.  A push uploads its pack, the pack's index
and, for a new chain, the baseline bundle before taking the lock; writing
`chain.json` under the lock is what commits it.
-/

namespace GitRemoteObjectStore.Packchain

open CallProgram Prog

inductive GitProbeError where
  | localRefNotFound
  | notAncestor
  | shallow

structure LocalGit where
  localSha : Sha
  peeled : PeeledTip
  priorCommit : Option Sha

/-- The commit a tip peels to. -/
def PeeledTip.commit? : PeeledTip → Option Sha
  | .commit commit _ => some commit
  | .tree _ _ => none
  | .blob _ _ => none

/--
The prior commit an incremental pack can be based on, or the refusal of a
push that is not a fast-forward.
-/
def priorCommitOf
    (repo : LocalRepo)
    (localCommit : Option Sha)
    (priorTip : Option Sha)
    (forcePush : Bool) :
    Except GitError (Except GitProbeError (Option Sha)) :=
  let mismatch : Except GitError (Except GitProbeError (Option Sha)) :=
    if forcePush then .ok (.ok none) else .ok (.error .notAncestor)
  match priorTip with
  | none => .ok (.ok none)
  | some prior =>
      match localCommit, repo.peelTagChain prior with
      | some localCommit, .ok (.commit commit _) =>
          match repo.isAncestor commit localCommit with
          | .error error => .error error
          | .ok ancestor =>
              if !forcePush && !ancestor then .ok (.error .notAncestor)
              else if !forcePush && ancestor then .ok (.ok (some commit))
              else .ok (.ok none)
      | none, _ => mismatch
      | _, .ok (.tree _ _) => mismatch
      | _, .ok (.blob _ _) => mismatch
      | _, .error .findObject => mismatch
      | _, .error error => .error error

/-- The shallow-boundary check, meaningful for commits only. -/
def crossesShallow
    (repo : LocalRepo)
    (localCommit : Option Sha) : Except PushError Bool :=
  match localCommit with
  | none => .ok false
  | some commit =>
      (repo.revWalkCrossesShallowBoundary commit).mapError .packchain

/-- The git work before the lock. -/
def localGitWorkPackchain
    (repo : LocalRepo)
    (localSpec : Text)
    (priorTip : Option Sha)
    (forcePush : Bool) :
    Except PushError (Except GitProbeError LocalGit) := do
  repo.opened.mapError .git
  match repo.resolve localSpec with
  | none => return .error .localRefNotFound
  | some localSha => do
      let peeled ← (repo.peelTagChain localSha).mapError .git
      let localCommit := PeeledTip.commit? peeled
      match ← (priorCommitOf repo localCommit priorTip
          forcePush).mapError .git with
      | .error refusal => return .error refusal
      | .ok priorCommit => do
          let shallow ← crossesShallow repo localCommit
          if shallow then return .error .shallow
          else return .ok ⟨localSha, peeled, priorCommit⟩

/-- Whether the chain's tip is an ancestor of what is pushed. -/
def currentTipIsAncestorOfLocal
    (repo : LocalRepo)
    (currentTip localSha : Sha) : Except PushError Bool := do
  repo.opened.mapError .git
  match ← (repo.peelTagChain localSha).mapError .git with
  | .tree _ _ => return false
  | .blob _ _ => return false
  | .commit localCommit _ =>
      match repo.peelTagChain currentTip with
      | .ok (.commit currentCommit _) =>
          (repo.isAncestor currentCommit localCommit).mapError .git
      | .ok (.tree _ _) => return false
      | .ok (.blob _ _) => return false
      | .error .findObject => return false
      | .error error => .error (.git error)

/-- Whether a pack carries a whole closure or what a prior commit lacks. -/
inductive PackKind where
  | baseline
  | incremental (priorCommit : Sha)

/-- The pack of a push, and the bundle of a baseline pack. -/
def buildPackAndBaseline
    (repo : LocalRepo)
    (localSha : Sha)
    (peeled : PeeledTip)
    (kind : PackKind)
    (localSpec : Text) :
    Except PackchainError (BuiltPack × Option (List UInt8)) :=
  match kind with
  | .baseline => do
      let pack ← repo.buildBaselinePack peeled
      match repo.bundleAt localSha localSpec with
      | .ok bundle => return (pack, some bundle)
      | .error _ => .error .packBuild
  | .incremental priorCommit =>
      match peeled with
      | .commit localCommit tagChain => do
          let pack ←
            repo.buildIncrementalPack priorCommit localCommit tagChain
          return (pack, none)
      | .tree _ _ => .error .packBuild
      | .blob _ _ => .error .packBuild

variable [Platform]

/-- What a prepared push carries into the lock. -/
structure ReadyState where
  remoteRef : RefName
  localSha : Sha
  prior : Option ChainManifest
  packContentSha : Sha40
  packBytes : Nat
  force : Bool
  localSpec : Text

inductive PrepareOutcome where
  | ready (state : ReadyState)
  | done (outcome : PushOutcome)

def probeErrorToOutcome
    (remoteRef : RefName)
    (localSpec : Text) : GitProbeError → PushOutcome
  | .localRefNotFound =>
      .error remoteRef ("\"" ++ String.ofList localSpec ++ " not found\"?")
  | .notAncestor => .error remoteRef (notAncestorWireMessage localSpec)
  | .shallow =>
      .error remoteRef
        ("\"cannot push from a shallow clone: rev-walk crosses a " ++
          "shallow boundary\"?")

/-- Upload the pack, its index and the baseline bundle, if there is one. -/
def uploadPackIdxBaseline
    (bucketPrefix : Option Text)
    (remoteRef : RefName)
    (localSha : Sha)
    (pack : BuiltPack)
    (baselineBundle : Option (List UInt8)) :
    Program PushError Unit := do
  (Store.putPath (packKey bucketPrefix pack.contentSha)
    pack.pack).mapError .store
  (Store.putPath (packIdxKey bucketPrefix pack.contentSha)
    pack.idx).mapError .store
  match baselineBundle with
  | none => return ()
  | some bundle =>
      (Store.putPath (bundleKey bucketPrefix remoteRef localSha)
        bundle).mapError .store

/-- A forced push, and one without a prior commit, packs a baseline. -/
def packKindOf (force : Bool) (priorCommit : Option Sha) : PackKind :=
  match force, priorCommit with
  | false, some priorCommit => .incremental priorCommit
  | _, _ => .baseline

/-- Everything a push does before the lock. -/
def preparePush
    (bucketPrefix : Option Text)
    (repo : LocalRepo)
    (spec : PushSpec) : Program PushError PrepareOutcome := do
  let prior ← (loadChain bucketPrefix spec.remoteRef).mapError .packchain
  let probe ←
    Prog.ofExcept
      (localGitWorkPackchain repo spec.localSpec
        (prior.map ChainManifest.tip) spec.force)
  match probe with
  | .error refusal =>
      return .done
        (probeErrorToOutcome spec.remoteRef spec.localSpec refusal)
  | .ok found =>
      if !spec.force &&
          prior.map ChainManifest.tip == some found.localSha then
        return .done (.ok spec.remoteRef)
      else do
        let built ←
          (Prog.ofExcept
            (buildPackAndBaseline repo found.localSha found.peeled
              (packKindOf spec.force found.priorCommit)
              spec.localSpec)).mapError .packchain
        uploadPackIdxBaseline bucketPrefix spec.remoteRef found.localSha
          built.1 built.2
        return .ready
          { remoteRef := spec.remoteRef
            localSha := found.localSha
            prior := prior
            packContentSha := built.1.contentSha
            packBytes := built.1.packBytes
            force := spec.force
            localSpec := spec.localSpec }

/-- Tombstone the baseline a forced push supersedes. -/
def forcePushBaselineCleanup
    {ε : Type}
    (bucketPrefix : Option Text)
    (remoteRef : RefName)
    (prior : Option ChainManifest)
    (localSha : Sha) : Program ε Unit :=
  match prior with
  | none => return ()
  | some prior => do
      let _ ←
        writeBaselineTombstoneBestEffort bucketPrefix remoteRef
          prior.fullAt localSha
      return ()

/-- The segment a push adds. -/
def newSegment (state : ReadyState) : ChainSegment where
  sha := state.localSha
  parentSha := none
  pack := packKey none state.packContentSha
  bytes := state.packBytes

/-- The manifest a push commits. -/
def committedManifest (state : ReadyState) : ChainManifest :=
  nextManifest state.prior state.localSha (newSegment state) state.force

/-- The index of what is pushed. -/
def pathIndexOf
    (repo : LocalRepo)
    (localSha : Sha) : Except PackchainError (Option PathIndex) :=
  match repo.opened with
  | .error error => .error (.git error)
  | .ok () =>
      match repo.peelTagChain localSha with
      | .error error => .error (.git error)
      | .ok peeled => repo.extractPathIndex peeled localSha

/-- Write the path index; a blob's chain has none. -/
def writeOrDropPathIndex
    (bucketPrefix : Option Text)
    (remoteRef : RefName)
    (pathIndex : Option PathIndex) : Program PushError Unit :=
  match pathIndex with
  | some index =>
      (writePathIndex bucketPrefix remoteRef index).mapError .packchain
  | none =>
      (deleteIdempotent (pathIndexKey bucketPrefix remoteRef)).mapError
        .store

/-- The writes of a push, once every check has passed. -/
def commitPush
    (bucketPrefix : Option Text)
    (state : ReadyState)
    (pathIndex : Option PathIndex) : Program PushError PushOutcome := do
  let _ ←
    (Store.putIfAbsent (formatKey bucketPrefix)
      (.text (lit "packchain"))).mapError .store
  let _ ←
    (Store.putIfAbsent (headKey bucketPrefix)
      (.text state.remoteRef.text)).mapError .store
  (writeChain bucketPrefix state.remoteRef
    (committedManifest state)).mapError .packchain
  writeOrDropPathIndex bucketPrefix state.remoteRef pathIndex
  if state.force then do
    forcePushBaselineCleanup bucketPrefix state.remoteRef state.prior
      state.localSha
    return .ok state.remoteRef
  else return .ok state.remoteRef

/-- Whether a forced push must be refused as not a fast-forward. -/
def forceRefused
    (bucketPrefix : Option Text)
    (repo : LocalRepo)
    (state : ReadyState)
    (current : Option ChainManifest) : Program PushError Bool :=
  if state.force then do
    let guarded ←
      (isProtected bucketPrefix state.remoteRef).mapError .store
    if guarded then
      match current with
      | none => return false
      | some chain => do
          let ancestor ←
            Prog.ofExcept
              (currentTipIsAncestorOfLocal repo chain.tip state.localSha)
          return !ancestor
    else return false
  else return false

/-- Everything under the lock. -/
def performPushUnderLock
    (bucketPrefix : Option Text)
    (repo : LocalRepo)
    (state : ReadyState) : Program PushError PushOutcome := do
  let current ←
    (loadChain bucketPrefix state.remoteRef).mapError .packchain
  let refused ← forceRefused bucketPrefix repo state current
  if refused then
    return .error state.remoteRef (notAncestorWireMessage state.localSpec)
  else if !state.force &&
      state.prior.map ChainManifest.tip != current.map ChainManifest.tip
  then
    return .error state.remoteRef
      "\"stale chain. Please fetch and retry.\"?"
  else do
    let pathIndex ←
      (Prog.ofExcept (pathIndexOf repo state.localSha)).mapError .packchain
    commitPush bucketPrefix state pathIndex

/-- Sweep a reference, leaving its baseline bundle to the collector. -/
def deleteUnderLock
    (bucketPrefix : Option Text)
    (remoteRef : RefName) : Program PushError PushOutcome := do
  match ← (Store.head (chainKey bucketPrefix remoteRef)).attempt with
  | .error (.notFound _) => return .error remoteRef "\"not found\"?"
  | .error error => .fail (.store error)
  | .ok _ => do
      let entries ←
        (Store.list
          (refListingPrefix bucketPrefix remoteRef)).mapError .store
      if entriesHaveProtectedMarker entries then
        return .error remoteRef deleteProtectionMessage
      else do
        let deferred ←
          tryWriteBaselineTombstone bucketPrefix remoteRef entries
        (forEach
          (fun entry : ObjectMeta =>
            if entry.key = lockKey bucketPrefix remoteRef then pure ()
            else if deferred = some entry.key then pure ()
            else deleteIdempotent entry.key)
          entries).mapError .store
        verifyNoOrphanProtectedAfterDelete bucketPrefix remoteRef
        return .ok remoteRef

/-- `:<ref>`: the lock is released on every way out. -/
def deleteRemoteRefPackchain
    (bucketPrefix : Option Text)
    (remoteRef : RefName)
    (ttl now : Int) : Program PushError PushOutcome :=
  underRefLock bucketPrefix remoteRef ttl now "pushing or deleting"
    (deleteUnderLock bucketPrefix remoteRef)

/-- Prepare, lock, work, release. -/
def pushOne
    (bucketPrefix : Option Text)
    (repo : LocalRepo)
    (ttl now : Int)
    (spec : PushSpec) : Program PushError PushOutcome :=
  if spec.localSpec = [] then
    deleteRemoteRefPackchain bucketPrefix spec.remoteRef ttl now
  else do
    match ← preparePush bucketPrefix repo spec with
    | .done outcome => return outcome
    | .ready state =>
        underRefLock bucketPrefix state.remoteRef ttl now "pushing"
          (performPushUnderLock bucketPrefix repo state)

/-! ## Listing -/

structure ChainRef where
  sha : Sha40
  refPath : Text
  lastModified : Int

/-- A listed `chain.json` whose path is a reference name. -/
def chainCandidate
    (bucketPrefix : Option Text)
    (entry : ObjectMeta) : Option (Text × Text × Int) :=
  if isChainJsonKey entry.key then
    match refPathFromChainKey bucketPrefix entry.key with
    | none => none
    | some refPath =>
        if Platform.isValidRefName refPath then
          some (entry.key, refPath, entry.lastModified)
        else none
  else none

/--
The tips of all chains, newest first.  The chains are read concurrently; one
gone since the listing, or one that does not parse, is skipped.
-/
def listRefs
    (completion : Arrivals.Completion)
    (bucketPrefix : Option Text) :
    Program PackchainError (List ChainRef) := do
  let metas ←
    (Store.list (join bucketPrefix (lit "refs/"))).mapError .store
  let found ←
    foldEach
      (fun found (candidate : Text × Text × Int) =>
        (Store.getBytes candidate.1).attempt >>= fun
          | .ok body =>
              pure
                (match ChainManifest.fromJsonBytes body with
                | .ok chain =>
                    found ++ [⟨chain.tip, candidate.2.1, candidate.2.2⟩]
                | .error _ => found)
          | .error (.notFound _) => pure found
          | .error error => .fail (.store error))
      []
      (completion.arrange (metas.filterMap (chainCandidate bucketPrefix)))
  return found.insertionSort fun left right =>
    right.lastModified ≤ left.lastModified

end GitRemoteObjectStore.Packchain
