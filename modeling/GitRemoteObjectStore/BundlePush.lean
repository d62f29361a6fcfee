import Mathlib.Data.List.Sort
import GitRemoteObjectStore.Lock

/-!
# Push and delete under the bundle engine

A reference is its visible bundle.  A push prepares its bundle file before
taking the lock; under the lock it lists the reference again, writes the
bundle, and then defers the prior bundle to the collector.
-/

namespace GitRemoteObjectStore.Bundle

open CallProgram Prog

inductive GitProbeError where
  | localRefNotFound
  | notAncestor

structure LocalGit where
  localSha : Sha
  zipArtifacts : Option (List UInt8)
  preExistingWasAncestor : Bool

/-- Whether the bundle listed before the lock is an ancestor. -/
def preExistingAncestry
    (repo : LocalRepo)
    (preExistingSha : Option Sha)
    (localSha : Sha) : Except GitError Bool :=
  match preExistingSha with
  | none => .ok true
  | some remoteSha => repo.isAncestor remoteSha localSha

/-- The git work before the lock. -/
def localGitWork
    (repo : LocalRepo)
    (localSpec : Text)
    (preExistingSha : Option Sha)
    (forcePush zip : Bool) :
    Except GitError (Except GitProbeError LocalGit) := do
  repo.opened
  match repo.resolve localSpec with
  | none => return .error .localRefNotFound
  | some localSha =>
      let wasAncestor ← preExistingAncestry repo preExistingSha localSha
      if !forcePush && !wasAncestor then return .error .notAncestor
      else if zip then do
        let archive ← repo.archive localSpec
        return .ok ⟨localSha, some archive, wasAncestor⟩
      else return .ok ⟨localSha, none, wasAncestor⟩

variable [Platform]

/-- What a prepared push carries into the lock. -/
structure PushReadyState where
  remoteRef : RefName
  localSha : Sha
  preExisting : Option Text
  bundle : List UInt8
  zipArtifacts : Option (List UInt8)
  force : Bool
  preExistingWasAncestor : Bool
  localSpec : Text
  hiddenBundles : List Text

inductive PrepareOutcome where
  | ready (state : PushReadyState)
  | delete (remoteRef : RefName)
  | done (outcome : PushOutcome)

/-- The visible bundles of a reference. -/
def bundlesForRef
    (bucketPrefix : Option Text)
    (remoteRef : RefName)
    (hidden : List Text) :
    Program ObjectStoreError (List ObjectMeta) := do
  let metas ← Store.list (refListingPrefix bucketPrefix remoteRef)
  return (metas.filter fun entry => isBundleCandidate entry.key).filter
    fun entry => !hidden.contains entry.key

def multipleBundlesMessage : String :=
  "\"multiple bundles exist on server. Run git-remote-object-store " ++
    "doctor to fix.\"?"

/-- Everything before the lock. -/
def preparePush
    (bucketPrefix : Option Text)
    (repo : LocalRepo)
    (zip : Bool)
    (spec : PushSpec) : Program PushError PrepareOutcome :=
  if spec.localSpec = [] then return .delete spec.remoteRef
  else do
    let hidden ← (tombstonedBundleKeys bucketPrefix).mapError .store
    let preBundles ←
      (bundlesForRef bucketPrefix spec.remoteRef hidden).mapError .store
    if 1 < preBundles.length then
      return .done (.error spec.remoteRef multipleBundlesMessage)
    else
      let preExisting := preBundles.head?.map ObjectMeta.key
      let preExistingSha :=
        match preExisting with
        | none => some none
        | some key => (parseRemoteShaFromKey key).map some
      match preExistingSha with
      | none =>
          return .done (.error spec.remoteRef
            ("\"unable to parse remote bundle key " ++
              String.ofList (preExisting.getD []) ++
              "; run git-remote-object-store doctor to fix.\"?"))
      | some preExistingSha => do
          let probe ←
            (Prog.ofExcept
              (localGitWork repo spec.localSpec preExistingSha spec.force
                zip)).mapError .git
          match probe with
          | .error .localRefNotFound =>
              return .done (.error spec.remoteRef
                ("\"" ++ String.ofList spec.localSpec ++
                  " not found\"?"))
          | .error .notAncestor =>
              return .done (.error spec.remoteRef
                (notAncestorWireMessage spec.localSpec))
          | .ok found => do
              let bundle ←
                (Prog.ofExcept
                  (repo.bundleAt found.localSha
                    spec.localSpec)).mapError .git
              return .ready
                { remoteRef := spec.remoteRef
                  localSha := found.localSha
                  preExisting := preExisting
                  bundle := bundle
                  zipArtifacts := found.zipArtifacts
                  force := spec.force
                  preExistingWasAncestor := found.preExistingWasAncestor
                  localSpec := spec.localSpec
                  hiddenBundles := hidden }

/-- Delete the prior bundle; a failure is only logged. -/
def deletePriorBundleBestEffort
    {ε : Type}
    (priorKey : Text) : Program ε Unit := do
  let _ ← (deleteIdempotent priorKey).attempt
  return ()

/-- Tombstone the prior bundle, or delete it if that fails. -/
def deferPriorBundleViaTombstone
    {ε : Type}
    (bucketPrefix : Option Text)
    (remoteRef : RefName)
    (priorKey : Text)
    (localSha : Sha) : Program ε Unit :=
  match parseRemoteShaFromKey priorKey with
  | none => deletePriorBundleBestEffort priorKey
  | some priorSha => do
      let wrote ←
        writeBaselineTombstoneBestEffort bucketPrefix remoteRef priorSha
          localSha
      if wrote then return () else deletePriorBundleBestEffort priorKey

/-- Upload the archive; a failure is only logged. -/
def uploadZipArtifactBestEffort
    {ε : Type}
    (zipDest : Text)
    (archive : List UInt8) : Program ε Unit := do
  let _ ← (Store.putPath zipDest archive).attempt
  return ()

/-- Defer the prior bundle unless it is the one just written. -/
def supersedePrior
    {ε : Type}
    (bucketPrefix : Option Text)
    (state : PushReadyState)
    (currentKey : Option Text) : Program ε Unit :=
  match currentKey with
  | none => return ()
  | some prev =>
      if prev ≠ bundleKey bucketPrefix state.remoteRef state.localSha then
        deferPriorBundleViaTombstone bucketPrefix state.remoteRef prev
          state.localSha
      else return ()

/-- Upload the archive of a `?zip=1` push. -/
def uploadArchive
    {ε : Type}
    (bucketPrefix : Option Text)
    (state : PushReadyState) : Program ε Unit :=
  match state.zipArtifacts with
  | none => return ()
  | some archive =>
      uploadZipArtifactBestEffort (archiveKey bucketPrefix state.remoteRef)
        archive

/-- The writes of a push, once every check has passed. -/
def commitPush
    (bucketPrefix : Option Text)
    (state : PushReadyState)
    (currentKey : Option Text) : Program PushError PushOutcome := do
  (Store.putPath (bundleKey bucketPrefix state.remoteRef state.localSha)
    state.bundle).mapError .store
  let _ ←
    (Store.putIfAbsent (headKey bucketPrefix)
      (.text state.remoteRef.text)).mapError .store
  let _ ←
    (Store.putIfAbsent (formatKey bucketPrefix)
      (.text (lit "bundle"))).mapError .store
  supersedePrior bucketPrefix state currentKey
  uploadArchive bucketPrefix state
  return .ok state.remoteRef

/-- Whether a forced push must be refused as not a fast-forward. -/
def forceRefused
    (bucketPrefix : Option Text)
    (state : PushReadyState) : Program PushError Bool :=
  if state.force && !state.preExistingWasAncestor then
    (isProtected bucketPrefix state.remoteRef).mapError .store
  else return false

/-- Everything under the lock. -/
def performPushUnderLock
    (bucketPrefix : Option Text)
    (state : PushReadyState) : Program PushError PushOutcome := do
  let refused ← forceRefused bucketPrefix state
  if refused then
    return .error state.remoteRef (notAncestorWireMessage state.localSpec)
  else do
    let current ←
      (bundlesForRef bucketPrefix state.remoteRef
        state.hiddenBundles).mapError .store
    if 1 < current.length then
      return .error state.remoteRef
        ("\"multiple bundles exist for the same ref on server. Run " ++
          "git-remote-object-store doctor to fix.\"?")
    else
      let currentKey := current.head?.map ObjectMeta.key
      if state.preExisting ≠ currentKey then
        return .error state.remoteRef
          "\"stale remote. Please fetch and retry.\"?"
      else commitPush bucketPrefix state currentKey

/-- Sweep a reference with exactly one bundle. -/
def deleteRemoteRefUnderLock
    (bucketPrefix : Option Text)
    (remoteRef : RefName) : Program PushError PushOutcome := do
  let allEntries ←
    (Store.list (refListingPrefix bucketPrefix remoteRef)).mapError .store
  if entriesHaveProtectedMarker allEntries then
    return .error remoteRef deleteProtectionMessage
  else
    let deletable :=
      allEntries.filter fun entry =>
        entry.key ≠ lockKey bucketPrefix remoteRef
    match (deletable.filter fun entry =>
        isBundleCandidate entry.key).length with
    | 0 => return .error remoteRef "\"not found\"?"
    | 1 => do
        (forEach (fun entry => deleteIdempotent entry.key)
          deletable).mapError .store
        verifyNoOrphanProtectedAfterDelete bucketPrefix remoteRef
        return .ok remoteRef
    | _ => return .error remoteRef multipleBundlesMessage

/-- Prepare, lock, work, release. -/
def pushOne
    (bucketPrefix : Option Text)
    (repo : LocalRepo)
    (zip : Bool)
    (ttl now : Int)
    (spec : PushSpec) : Program PushError PushOutcome := do
  match ← preparePush bucketPrefix repo zip spec with
  | .done outcome => return outcome
  | .ready state =>
      underRefLock bucketPrefix state.remoteRef ttl now
        "pushing or deleting" (performPushUnderLock bucketPrefix state)
  | .delete remoteRef =>
      underRefLock bucketPrefix remoteRef ttl now "pushing or deleting"
        (deleteRemoteRefUnderLock bucketPrefix remoteRef)

/-! ## Listing -/

structure ListedRef where
  sha : Sha40
  refPath : Text
deriving DecidableEq

/-- The visible bundles of the repository, newest first. -/
def collectBundles
    (bucketPrefix : Option Text) :
    Program ObjectStoreError (List ListedRef) := do
  let listed ← Store.list (prefixText bucketPrefix)
  if listed.isEmpty then return []
  else do
    let hidden ← tombstonedBundleKeys bucketPrefix
    let parsed :=
      listed.filterMap fun entry =>
        if hidden.contains entry.key then none
        else
          ((relativeKey bucketPrefix entry.key).bind parseBundleKey).map
            fun found => (entry.lastModified, found)
    return (parsed.insertionSort fun left right =>
        right.1 ≤ left.1).map
      fun entry => ⟨entry.2.2, entry.2.1⟩

end GitRemoteObjectStore.Bundle
