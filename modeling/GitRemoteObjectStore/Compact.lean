import GitRemoteObjectStore.PackchainPush
import GitRemoteObjectStore.Library.Arrivals

/-!
# Compaction and branch deletion

`compact` rewrites a chain to one segment at its present tip, under the
lock and from what the bucket holds.  `delete-branch` sweeps a reference of
either engine after a confirmation.
-/

namespace GitRemoteObjectStore

open CallProgram Prog Arrivals

/-! ## Compact -/

namespace Packchain

inductive CompactAction where
  | compacted
  | skippedUnderThreshold
  | alreadyMinimal
  | lockContended
deriving DecidableEq

def compactSegmentsThreshold : Nat := 20

def compactBytesThreshold : Nat := 100 * 1024 * 1024

/-- The sum of the segments' sizes, saturating at 64 bits. -/
def priorBytesOf (chain : ChainManifest) : Nat :=
  chain.segments.foldl
    (fun total segment => min (total + segment.bytes) (2 ^ 64 - 1)) 0

/-- The name of a downloaded file. -/
inductive FileName where
  | pack (sha : Sha40)
  | bundle (sha : Sha40)
deriving DecidableEq

/-- Downloaded files by name. -/
abbrev Directory : Type :=
  AList fun _ : FileName => Body

/-- One artefact to download. -/
structure DownloadTask where
  key : Text
  dest : FileName

/--
What a compaction does outside the bucket: the order in which its downloads
complete, and the scratch repository it gets by installing a baseline bundle
and then packs.
-/
structure Scratch where
  completion : Completion
  install : Body → List Body → Except PackchainError LocalRepo

/-- A compaction in a clone of the linear history. -/
def Scratch.linear : Scratch where
  completion := .inOrder
  install := fun _ _ => .ok .linear

/-- The manifest a compaction commits. -/
def compactedManifest
    (chain : ChainManifest)
    (pack : BuiltPack) : ChainManifest where
  v := ChainManifest.schemaVersion
  tip := chain.tip
  fullAt := chain.tip
  segments :=
    [{ sha := chain.tip
       parentSha := none
       pack := packKey none pack.contentSha
       bytes := pack.packBytes }]

variable [Platform]

structure CompactOutcome where
  action : CompactAction
  refPath : RefName
  priorSegments : Nat
  priorBytes : Nat
  newPack : Option (Sha40 × Nat)

/-- The download of a segment's pack, once its pack key is checked. -/
def segmentTask
    (bucketPrefix : Option Text)
    (segment : ChainSegment) : Except PackchainError DownloadTask :=
  (segmentPackSha segment).map fun _ =>
    ⟨packKeyFromRelative bucketPrefix segment.pack, .pack segment.sha⟩

/-- Check every pack key of a chain before requesting any of them. -/
def downloadTasks
    (bucketPrefix : Option Text)
    (refName : RefName)
    (chain : ChainManifest) :
    Except PackchainError (List DownloadTask) := do
  let packs ← chain.segments.mapM (segmentTask bucketPrefix)
  return packs ++
    [⟨bundleKey bucketPrefix refName chain.fullAt, .bundle chain.fullAt⟩]

/-- Every pack of a chain and its baseline bundle, as files. -/
def downloadChainArtefacts
    (bucketPrefix : Option Text)
    (completion : Completion)
    (refName : RefName)
    (chain : ChainManifest) : Program PackchainError Directory := do
  let tasks ← Prog.ofExcept (downloadTasks bucketPrefix refName chain)
  foldEach
    (fun (directory : Directory) task => do
      let body ← (Store.getToFile task.key).mapError .store
      return directory.insert task.dest body)
    ∅ (completion.arrange tasks)

/-- Read a downloaded file. -/
def Directory.read
    (directory : Directory)
    (name : FileName) : Except PackchainError Body :=
  match directory.lookup name with
  | some body => .ok body
  | none => .error .io

/-- Install the baseline bundle and every pack, oldest first. -/
def installChainIntoRepo
    (scratch : Scratch)
    (directory : Directory)
    (chain : ChainManifest) : Except PackchainError LocalRepo := do
  let bundle ← directory.read (.bundle chain.fullAt)
  let packs ←
    chain.segments.reverse.mapM fun segment =>
      directory.read (.pack segment.sha)
  scratch.install bundle packs

/-- What a compaction computes in its scratch repository. -/
def rebuild
    (scratch : Scratch)
    (chain : ChainManifest)
    (directory : Directory) :
    Except PackchainError
      (BuiltPack × Option PathIndex × List UInt8) := do
  let repo ← installChainIntoRepo scratch directory chain
  let peeled ← (repo.peelTagChain chain.tip).mapError .git
  let pack ← repo.buildBaselinePack peeled
  let pathIndex ← repo.extractPathIndex peeled chain.tip
  let bundle ← (repo.bundleAt chain.tip chain.tip.text).mapError .git
  return (pack, pathIndex, bundle)

/-- Write the path index of a chain that has one. -/
def writePathIndexIfAny
    (bucketPrefix : Option Text)
    (refName : RefName)
    (pathIndex : Option PathIndex) : Program PackchainError Unit :=
  match pathIndex with
  | some index => writePathIndex bucketPrefix refName index
  | none => return ()

/-- The writes of a compaction. -/
def commitCompaction
    (bucketPrefix : Option Text)
    (refName : RefName)
    (chain : ChainManifest)
    (built : BuiltPack × Option PathIndex × List UInt8) :
    Program PackchainError (Sha40 × Nat) := do
  let pack := built.1
  (Store.putPath (packKey bucketPrefix pack.contentSha)
    pack.pack).mapError .store
  (Store.putPath (packIdxKey bucketPrefix pack.contentSha)
    pack.idx).mapError .store
  (Store.putPath (bundleKey bucketPrefix refName chain.tip)
    built.2.2).mapError .store
  writeChain bucketPrefix refName (compactedManifest chain pack)
  writePathIndexIfAny bucketPrefix refName built.2.1
  let _ ←
    writeBaselineTombstoneBestEffort bucketPrefix refName chain.fullAt
      chain.tip
  return (pack.contentSha, pack.packBytes)

/-- Everything under the lock. -/
def compactUnderLock
    (bucketPrefix : Option Text)
    (scratch : Scratch)
    (refName : RefName) : Program PackchainError (Sha40 × Nat) := do
  match ← loadChain bucketPrefix refName with
  | none => .fail (.chainAbsent refName.text)
  | some chain => do
      let directory ←
        downloadChainArtefacts bucketPrefix scratch.completion refName
          chain
      let built ← Prog.ofExcept (rebuild scratch chain directory)
      commitCompaction bucketPrefix refName chain built

/-- Why a chain needs no compaction, if it does not. -/
def compactShortCircuit
    (prior : ChainManifest)
    (force : Bool) : Option CompactAction :=
  if prior.segments.length = 1 ∧ prior.tip = prior.fullAt then
    some .alreadyMinimal
  else if force = false ∧
      prior.segments.length ≤ compactSegmentsThreshold ∧
      priorBytesOf prior ≤ compactBytesThreshold then
    some .skippedUnderThreshold
  else none

/-- Rewrite a chain to one segment. -/
def compact
    (bucketPrefix : Option Text)
    (scratch : Scratch)
    (refName : RefName)
    (force : Bool)
    (ttl : Int) : Program PackchainError CompactOutcome := do
  match ← loadChain bucketPrefix refName with
  | none => .fail (.chainAbsent refName.text)
  | some prior =>
      let outcome (action : CompactAction) (pack : Option (Sha40 × Nat)) :
          CompactOutcome :=
        ⟨action, refName, prior.segments.length, priorBytesOf prior, pack⟩
      match compactShortCircuit prior force with
      | some action => return outcome action none
      | none => do
          let now ← nowUtc
          match ← (holdingLock (lockKey bucketPrefix refName) ttl now
              (compactUnderLock bucketPrefix scratch refName)).mapError
                .store with
          | none => return outcome .lockContended none
          | some (.error error, _) => .fail error
          | some (.ok pack, _) => return outcome .compacted (some pack)

end Packchain

/-! ## Delete a branch -/

inductive ManageError where
  | branchNotFound
  | protectedBranch
  | lockContended
  | partialDelete (undeleted : List Text) (attempted : Nat)
  | store (error : ObjectStoreError)

/-- How `delete-branch` ended without an error. -/
inductive DeleteBranchResult where
  | aborted
  | alreadyGone
  | deleted (count : Nat)

variable [Platform]

/-- Sweep a branch, collecting what could not be deleted. -/
def deleteBranchUnderLock
    (bucketPrefix : Option Text)
    (refName : RefName) : Program ManageError DeleteBranchResult := do
  let listed ←
    (Store.list (refListingPrefix bucketPrefix refName)).mapError .store
  let fresh :=
    listed.filter fun entry => entry.key ≠ lockKey bucketPrefix refName
  if fresh.isEmpty then return .alreadyGone
  else if entriesHaveProtectedMarker fresh then .fail .protectedBranch
  else do
    let deferred ← tryWriteBaselineTombstone bucketPrefix refName fresh
    let undeleted ←
      foldEach
        (fun undeleted (entry : ObjectMeta) =>
          if deferred = some entry.key then pure undeleted
          else
            (Store.delete entry.key).attempt >>= fun
              | .ok () => pure undeleted
              | .error (.notFound _) => pure undeleted
              | .error _ => pure (undeleted ++ [entry.key]))
        [] fresh
    let attempted := fresh.length - (if deferred.isSome then 1 else 0)
    if undeleted.isEmpty then do
      verifyNoOrphanProtectedAfterDelete bucketPrefix refName
      return .deleted attempted
    else .fail (.partialDelete undeleted attempted)

/-- Open the branch, ask, and delete it under its lock. -/
def deleteBranch
    (bucketPrefix : Option Text)
    (refName : RefName)
    (confirmed : Bool)
    (ttl : Int) : Program ManageError DeleteBranchResult := do
  let listing := refListingPrefix bucketPrefix refName
  let opened ← (Store.list listing).mapError .store
  if opened.isEmpty then .fail .branchNotFound
  else do
    let initial ← (Store.list listing).mapError .store
    if entriesHaveProtectedMarker initial then .fail .protectedBranch
    else if !confirmed then return .aborted
    else do
      let now ← nowUtc
      match ← (holdingLock (lockKey bucketPrefix refName) ttl now
          (deleteBranchUnderLock bucketPrefix refName)).mapError
            .store with
      | none => .fail .lockContended
      | some (.error error, _) => .fail error
      | some (.ok result, _) => return result

end GitRemoteObjectStore
