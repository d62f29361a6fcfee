import GitRemoteObjectStore.Library.Arrivals
import GitRemoteObjectStore.Manifest

/-!
# Garbage collection

Tombstones and the two phases of the collector.  A baseline tombstone names
one superseded bundle of a reference and hides it from listings; a pack
tombstone names the packs one mark phase found unreferenced.  Sweeping acts
on the tombstones older than the grace window.
-/

namespace GitRemoteObjectStore

open CallProgram Prog
open Arrivals (Completion)

/-! ## The grace window -/

inductive GraceDecision where
  | within
  | past
deriving DecidableEq

/-- Whole hours of a duration, towards zero. -/
def wholeHours (duration : Int) : Int :=
  duration.tdiv hour

/-- A negative age counts as within the window. -/
def graceDecision (age : Int) (graceHours : Nat) : GraceDecision :=
  if wholeHours age < 0 ∨ wholeHours age < graceHours then .within
  else .past

theorem graceDecision_past
    {age : Int}
    {graceHours : Nat}
    (positive : 0 < graceHours)
    (past : graceDecision age graceHours = .past) :
    graceHours * hour ≤ age := by
  unfold graceDecision at past
  split at past
  · cases past
  next notWithin =>
      have whole : (graceHours : Int) ≤ wholeHours age := by omega
      have nonneg : 0 ≤ age := by
        by_contra negative
        have flipped : 0 ≤ (-age).tdiv hour :=
          Int.tdiv_nonneg (by omega) (by decide)
        rw [Int.neg_tdiv] at flipped
        have small : wholeHours age ≤ 0 := Int.nonpos_of_neg_nonneg flipped
        omega
      rw [wholeHours, Int.tdiv_eq_ediv_of_nonneg nonneg] at whole
      have scaled := (Int.le_ediv_iff_mul_le (by decide : 0 < hour)).1 whole
      exact scaled

variable [Platform]

/-- Compare a tombstone's time stamp with the present. -/
def checkGraceWindow
    (markedAt : Option Int)
    (graceHours : Nat) : Program PackchainError GraceDecision :=
  match markedAt with
  | none => .fail .io
  | some markedAt => do
      let now ← nowUtc
      return graceDecision (now - markedAt) graceHours

/-! ## Writing baseline tombstones -/

/-- Write a baseline tombstone under a fresh identifier. -/
def writeBaselineTombstoneUnconditional
    (bucketPrefix : Option Text)
    (refName : RefName)
    (orphanSha : Sha40) : Program PackchainError Unit := do
  let markedAt ← nowUtc
  let runId ← newUuid
  (Store.putBytes (baselineTombstoneKey (prefixText bucketPrefix) runId)
    (.baselineTombstone
      ⟨tombstoneSchemaVersion, some markedAt, refName.text,
        orphanSha⟩)).mapError .store

/-- Nothing is written when the baseline did not change. -/
def writeBaselineTombstone
    (bucketPrefix : Option Text)
    (refName : RefName)
    (priorFullSha currentFullSha : Sha40) :
    Program PackchainError Unit :=
  if priorFullSha = currentFullSha then return ()
  else
    writeBaselineTombstoneUnconditional bucketPrefix refName priorFullSha

/-- Whether a tombstone was written; a failure is only logged. -/
def writeBaselineTombstoneBestEffort
    {ε : Type}
    (bucketPrefix : Option Text)
    (refName : RefName)
    (priorFullSha currentFullSha : Sha40) : Program ε Bool := do
  match ← (writeBaselineTombstone bucketPrefix refName priorFullSha
      currentFullSha).attempt with
  | .ok () => return decide (priorFullSha ≠ currentFullSha)
  | .error _ => return false

/-- The tombstone of a bundle about to lose its chain. -/
def writeBaselineTombstoneForOrphan
    (bucketPrefix : Option Text)
    (refName : RefName)
    (orphanSha : Sha40) : Program PackchainError Unit :=
  writeBaselineTombstoneUnconditional bucketPrefix refName orphanSha

/--
Tombstone the chain's baseline bundle if the listing has it; the key is
returned when the bundle's deletion is deferred.
-/
def tryWriteBaselineTombstone
    {ε : Type}
    (bucketPrefix : Option Text)
    (remoteRef : RefName)
    (fresh : List ObjectMeta) : Program ε (Option Text) := do
  match ← (loadChain bucketPrefix remoteRef).attempt with
  | .ok (some chain) =>
      let bundle := bundleKey bucketPrefix remoteRef chain.fullAt
      if fresh.any fun entry => entry.key == bundle then
        match ← (writeBaselineTombstoneForOrphan bucketPrefix remoteRef
            chain.fullAt).attempt with
        | .ok () => return some bundle
        | .error _ => return none
      else return none
  | .ok none => return none
  | .error _ => return none

/-! ## Hidden bundles -/

/-- The bundle key a stored tombstone names, if it parses. -/
def tombstonedKey
    (bucketPrefix : Option Text) (body : Body) : Option Text :=
  match BaselineTombstone.fromJsonBytes body with
  | .error _ => none
  | .ok tombstone =>
      (RefName.new tombstone.refName).map fun refName =>
        bundleKey bucketPrefix refName tombstone.sha

/-- The bundle keys hidden from listings. -/
def tombstonedBundleKeys
    (bucketPrefix : Option Text) :
    Program ObjectStoreError (List Text) := do
  match ← (Store.list
      (gcListingPrefix (prefixText bucketPrefix))).attempt with
  | .error (.notFound _) => return []
  | .error error => .fail error
  | .ok metas =>
      foldEach
        (fun keys entry =>
          if isBaselineTombstoneKey entry.key (prefixText bucketPrefix) then
            (Store.getBytes entry.key).attempt >>= fun
              | .ok body =>
                  pure
                    (match tombstonedKey bucketPrefix body with
                    | some key => key :: keys
                    | none => keys)
              | .error (.notFound _) => pure keys
              | .error error => .fail error
          else pure keys)
        [] metas

/-! ## Referenced packs -/

/-- Add the packs of a chain's segments. -/
def insertSegments :
    List Sha40 → List ChainSegment → Except PackchainError (List Sha40)
  | shas, [] => .ok shas
  | shas, segment :: rest =>
      match segmentPackSha segment with
      | .ok sha => insertSegments (sha :: shas) rest
      | .error error => .error error

omit [Platform] in
/-- What is inserted stays, and the named packs are inserted. -/
theorem mem_insertSegments_iff
    {segments : List ChainSegment}
    {shas inserted : List Sha40}
    (ok : insertSegments shas segments = .ok inserted)
    {sha : Sha40} :
    sha ∈ inserted ↔
      sha ∈ shas ∨
        sha ∈ segments.filterMap fun segment =>
          shaFromPackKey segment.pack := by
  induction segments generalizing shas with
  | nil =>
      cases ok
      simp
  | cons segment rest hypothesis =>
      cases found : shaFromPackKey segment.pack with
      | none => simp [insertSegments, segmentPackSha, found] at ok
      | some packSha =>
          simp only [insertSegments, segmentPackSha, found] at ok
          rw [hypothesis ok]
          simp only [List.filterMap_cons, found, List.mem_cons]
          tauto

omit [Platform] in
/-- Inserting fails on a malformed pack entry only. -/
theorem insertSegments_ok_iff
    {segments : List ChainSegment}
    {shas : List Sha40} :
    (∃ inserted, insertSegments shas segments = .ok inserted) ↔
      ∀ segment ∈ segments, (shaFromPackKey segment.pack).isSome := by
  induction segments generalizing shas with
  | nil => simp [insertSegments]
  | cons segment rest hypothesis =>
      cases found : shaFromPackKey segment.pack with
      | none => simp [insertSegments, segmentPackSha, found]
      | some packSha =>
          simp only [insertSegments, segmentPackSha, found,
            List.forall_mem_cons, Option.isSome_some, true_and]
          exact hypothesis

/-- Add the packs of one listed chain. -/
def readChain
    (shas : List Sha40)
    (entry : ObjectMeta) : Program PackchainError (List Sha40) := do
  let body ← (Store.getBytes entry.key).mapError .store
  match ChainManifest.fromJsonBytes body with
  | .error error => .fail error
  | .ok chain => Prog.ofExcept (insertSegments shas chain.segments)

/--
The packs named by any chain under `refs/`.  The chains are read concurrently
and counted in the order in which they arrive.
-/
def listReferencedPacks
    (completion : Completion)
    (text : Text) : Program PackchainError (List Sha40) := do
  let metas ← (Store.list (join (some text) (lit "refs/"))).mapError .store
  foldEach readChain []
    (completion.arrange
      (metas.filter fun entry => isChainJsonKey entry.key))

/-- The packs present in the bucket. -/
def listPackShas (text : Text) : Program PackchainError (List Sha40) := do
  let metas ← (Store.list (join (some text) (lit "packs/"))).mapError .store
  return (metas.filterMap fun entry => packShaFromListing entry.key).dedup

/-! ## Mark -/

structure MarkOutcome where
  runId : Component
  orphanCount : Nat
  tombstoneKey : Text

/-- Tombstone the packs no chain names. -/
def mark
    (completion : Completion)
    (text : Text)
    (dryRun : Bool) : Program PackchainError MarkOutcome := do
  let onBucket ← listPackShas text
  let referenced ← listReferencedPacks completion text
  let orphans := onBucket.filter fun sha => !referenced.contains sha
  let runId ← newUuid
  let markedAt ← nowUtc
  let key := tombstoneKey text runId (Platform.rfc3339 markedAt)
  let outcome : MarkOutcome := ⟨runId, orphans.length, key⟩
  if dryRun then return outcome
  else if orphans.length = 0 then return outcome
  else do
    (Store.putBytes key
      (.tombstone
        ⟨tombstoneSchemaVersion, runId.text, some markedAt,
          orphans⟩)).mapError .store
    return outcome

/-! ## Sweep -/

/--
For every pack of every tombstone, the order in which the chains arrive that
a sweep reads before it deletes the pack.
-/
def Scans : Type :=
  Text → Sha40 → Completion

/-- Every time in the order in which they were listed. -/
def Scans.inOrder : Scans :=
  fun _ _ => .inOrder

/-- Every time in the opposite order. -/
def Scans.reversed : Scans :=
  fun _ _ => .reversed

structure SweepOpts where
  graceHours : Nat
  force : Bool

structure SweepOutcome where
  sweptTombstones : Nat
  deferredTombstones : Nat
  deletedObjects : Nat
  skippedRepointedPacks : Nat

inductive SweepStep where
  | deferred
  | swept (deletedObjects skippedRepointedPacks : Nat)

/-- The grace window, which `--force` skips. -/
def graceCheck
    (opts : SweepOpts)
    (markedAt : Option Int) : Program PackchainError GraceDecision :=
  if opts.force then return .past
  else checkGraceWindow markedAt opts.graceHours

/-- Delete, counting the object if it was there. -/
def deleteCounted (key : Text) : Program PackchainError Nat := do
  match ← (Store.delete key).attempt with
  | .ok () => return 1
  | .error (.notFound _) => return 0
  | .error error => .fail (.store error)

/-- Delete one tombstoned pack unless a chain names it. -/
def sweepOnePack
    (scan : Sha40 → Completion)
    (text : Text)
    (counts : Nat × Nat)
    (sha : Sha40) : Program PackchainError (Nat × Nat) := do
  let referenced ← listReferencedPacks (scan sha) text
  if referenced.contains sha then return (counts.1, counts.2 + 1)
  else do
    let pack ← deleteCounted (packKey (some text) sha)
    let idx ← deleteCounted (packIdxKey (some text) sha)
    return (counts.1 + pack + idx, counts.2)

/-- Apply one pack tombstone. -/
def sweepOneTombstone
    (scan : Sha40 → Completion)
    (text key : Text)
    (opts : SweepOpts) : Program PackchainError SweepStep := do
  match ← (Store.getBytes key).attempt with
  | .error (.notFound _) => return .swept 0 0
  | .error error => .fail (.store error)
  | .ok body =>
      let tombstone ← Prog.ofExcept (Tombstone.fromJsonBytes body)
      let decision ← graceCheck opts tombstone.markedAt
      match decision with
      | .within => return .deferred
      | .past =>
          let counts ←
            foldEach (sweepOnePack scan text) (0, 0) tombstone.orphanPacks
          let _ ← deleteCounted key
          return .swept counts.1 counts.2

/-- Whether a chain's baseline is the tombstoned object. -/
def baselineIs (chain : Option ChainManifest) (sha : Sha40) : Bool :=
  chain.any fun manifest => decide (manifest.fullAt = sha)

/-- Apply one baseline tombstone. -/
def sweepOneBaselineTombstone
    (text key : Text)
    (opts : SweepOpts) : Program PackchainError SweepStep := do
  match ← (Store.getBytes key).attempt with
  | .error (.notFound _) => return .swept 0 0
  | .error error => .fail (.store error)
  | .ok body =>
      let tombstone ← Prog.ofExcept (BaselineTombstone.fromJsonBytes body)
      let decision ← graceCheck opts tombstone.markedAt
      match decision with
      | .within => return .deferred
      | .past =>
          match RefName.new tombstone.refName with
          | none => return .deferred
          | some refName =>
              let chain ← loadChain (prefixOpt text) refName
              if baselineIs chain tombstone.sha then do
                let _ ← deleteCounted key
                return .swept 0 1
              else do
                let recheck ← loadChain (prefixOpt text) refName
                if baselineIs recheck tombstone.sha then return .deferred
                else do
                  let deleted ←
                    deleteCounted
                      (bundleKey (prefixOpt text) refName tombstone.sha)
                  let _ ← deleteCounted key
                  return .swept deleted 0

/-- Count one applied tombstone; a failed one is only logged. -/
def SweepOutcome.count
    (outcome : SweepOutcome) :
    Except PackchainError SweepStep → SweepOutcome
  | .ok .deferred =>
      { outcome with deferredTombstones := outcome.deferredTombstones + 1 }
  | .ok (.swept deleted skipped) =>
      { outcome with
        sweptTombstones := outcome.sweptTombstones + 1
        deletedObjects := outcome.deletedObjects + deleted
        skippedRepointedPacks := outcome.skippedRepointedPacks + skipped }
  | .error _ => outcome

/-- Apply the tombstone at one listed key. -/
def sweepEntry
    (scans : Scans)
    (text : Text)
    (opts : SweepOpts)
    (outcome : SweepOutcome)
    (entry : ObjectMeta) : Program PackchainError SweepOutcome :=
  if ¬ lit ".json" <:+ entry.key then return outcome
  else if isTombstoneKey entry.key text then do
    let step ←
      (sweepOneTombstone (scans entry.key) text entry.key opts).attempt
    return outcome.count step
  else if isBaselineTombstoneKey entry.key text then do
    let step ← (sweepOneBaselineTombstone text entry.key opts).attempt
    return outcome.count step
  else return outcome

/-- Apply every tombstone past the grace window. -/
def sweep
    (scans : Scans)
    (text : Text)
    (opts : SweepOpts) : Program PackchainError SweepOutcome := do
  let metas ← (Store.list (gcListingPrefix text)).mapError .store
  foldEach (sweepEntry scans text opts) ⟨0, 0, 0, 0⟩ metas

end GitRemoteObjectStore
