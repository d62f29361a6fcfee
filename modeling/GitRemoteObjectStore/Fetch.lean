import Mathlib.Data.Finset.Basic
import GitRemoteObjectStore.Compact

/-!
# Fetch under the packchain engine

A fetch walks the chain of a reference from its tip to the first segment the
local repository has, downloads the packs of the segments before that, and
the baseline bundle when there is none, and installs them.  With a depth it
goes segment by segment and stops at a shallow boundary.
-/

namespace GitRemoteObjectStore.Packchain

open CallProgram Prog Arrivals Separated

inductive FetchError where
  | packchain (error : PackchainError)
  | store (error : ObjectStoreError)
  | git (error : GitError)
  | io
deriving DecidableEq

/-- Failures of an installation. -/
inductive InstallError where
  | git (error : GitError)
  | io
  | packIndexWrite
deriving DecidableEq

def InstallError.toFetchError : InstallError → FetchError
  | .git error => .git error
  | .io => .io
  | .packIndexWrite => .packchain .packIndexWrite

/-- What a fetch does to a local repository. -/
structure LocalOps (ρ : Type) where
  /-- `odb.contains` -/
  contains : ρ → Sha → Bool
  /-- `git::unbundle_at`, with the file's content. -/
  unbundleAt : ρ → Body → Except InstallError ρ
  /-- `install_pack`, with the file's content. -/
  installPack : ρ → Body → Except InstallError ρ
  /-- `git::shallow_boundaries` -/
  shallowBoundaries : ρ → Sha → Nat → Except GitError (List Sha)

/-! ## The chain walk -/

section Walk

variable {ρ : Type} (ops : LocalOps ρ) (repo : ρ)

/--
The segments before the first one whose tip is there, and whether none of
them is.
-/
def selectNeededSegments : List ChainSegment → List ChainSegment × Bool
  | [] => ([], true)
  | segment :: older =>
      if ops.contains repo segment.sha then ([], false)
      else
        let rest := selectNeededSegments older
        (segment :: rest.1, rest.2)

end Walk

variable [Platform]

/-! ## Downloads -/

/-- Fetch a pack, naming it when it is missing. -/
def downloadPack (key : Text) : Program FetchError Body := do
  match ← (Store.getToFile key).attempt with
  | .ok body => return body
  | .error (.notFound _) => .fail (.packchain (.packMissing key))
  | .error error => .fail (.store error)

/-- Fetch a baseline bundle, naming it when it is missing. -/
def downloadBaseline (key : Text) : Program FetchError Body := do
  match ← (Store.getToFile key).attempt with
  | .ok body => return body
  | .error (.notFound _) => .fail (.packchain (.baselineMissing key))
  | .error error => .fail (.store error)

/-- One downloaded artefact ready for installation. -/
inductive DownloadedArtifact where
  | segment (sha : Sha40) (packPath : FileName)
  | baseline (sha : Sha) (bundlePath : FileName)

/-- A spawned download and what it is to yield. -/
structure SpawnedDownload where
  key : Text
  dest : FileName
  artifact : DownloadedArtifact

def SpawnedDownload.fetch
    (download : SpawnedDownload) : Program FetchError Body :=
  match download.artifact with
  | .segment _ _ => downloadPack download.key
  | .baseline _ _ => downloadBaseline download.key

/-- The download of a segment, once its pack key is checked. -/
def spawnSegment
    (bucketPrefix : Option Text)
    (segment : ChainSegment) : Except PackchainError SpawnedDownload :=
  (segmentPackSha segment).map fun contentSha =>
    { key := packKeyFromRelative bucketPrefix segment.pack
      dest := .pack contentSha
      artifact := .segment segment.sha (.pack contentSha) }

/-- One download for each needed segment, and for the baseline. -/
def spawnFullDownloads
    (bucketPrefix : Option Text)
    (refName : RefName)
    (needed : List ChainSegment)
    (baselineSha : Option Sha) :
    Except PackchainError (List SpawnedDownload) := do
  let packs ← needed.mapM (spawnSegment bucketPrefix)
  match baselineSha with
  | none => return packs
  | some sha =>
      let baseline : SpawnedDownload :=
        { key := bundleKey bucketPrefix refName sha
          dest := .bundle sha
          artifact := .baseline sha (.bundle sha) }
      return packs ++ [baseline]

/--
The downloaded files, the path of each segment's pack by the segment's name,
the baseline, and the first error.
-/
structure DrainedDownloads where
  files : Directory
  segments : AList fun _ : Sha40 => FileName
  baseline : Option (Sha × FileName)
  firstErr : Option FetchError

def DrainedDownloads.start : DrainedDownloads :=
  ⟨∅, ∅, none, none⟩

/-- A download has completed. -/
def DrainedDownloads.join
    (drained : DrainedDownloads)
    (download : SpawnedDownload) :
    Except FetchError Body → DrainedDownloads
  | .ok body =>
      let files := drained.files.insert download.dest body
      match download.artifact with
      | .segment sha packPath =>
          { drained with
            files := files
            segments := drained.segments.insert sha packPath }
      | .baseline sha bundlePath =>
          { drained with
            files := files
            baseline := some (sha, bundlePath) }
  | .error error =>
      { drained with firstErr := drained.firstErr.or (some error) }

/-- Let every download complete; the first error is kept. -/
def drainFullDownloads
    {ε : Type}
    (downloads : List SpawnedDownload) : Program ε DrainedDownloads :=
  foldEach
    (fun drained (download : SpawnedDownload) => do
      let outcome ← download.fetch.attempt
      return drained.join download outcome)
    .start downloads

/-! ## Full fetches -/

section Local

variable {ρ : Type} (ops : LocalOps ρ)

/-- Read a downloaded file. -/
def readFile
    (files : Directory)
    (path : FileName) : Except InstallError Body :=
  match files.lookup path with
  | some body => .ok body
  | none => .error .io

/-- A step on the local repository, which stays as it was if it fails. -/
def localStep
    (repo : ρ)
    (step : ρ → Except InstallError ρ) : Except (FetchError × ρ) ρ :=
  (step repo).mapError fun error => (error.toFetchError, repo)

/-- Install the packs of the segments in order, taking each path once. -/
def installSegments
    (files : Directory) :
    ρ → (AList fun _ : Sha40 => FileName) → List ChainSegment →
      Except (FetchError × ρ) ρ
  | repo, _, [] => .ok repo
  | repo, paths, segment :: newer =>
      match paths.lookup segment.sha with
      | none => .error (.packchain .packBuild, repo)
      | some path =>
          (localStep repo fun repo =>
            (readFile files path).bind (ops.installPack repo)).bind
            fun installed =>
              installSegments files installed (paths.erase segment.sha)
                newer

/-- Install the baseline, if there is one, and the segments oldest first. -/
def installDrained
    (repo : ρ)
    (drained : DrainedDownloads)
    (needed : List ChainSegment) : Except (FetchError × ρ) ρ :=
  let based : Except (FetchError × ρ) ρ :=
    match drained.baseline with
    | none => .ok repo
    | some (_, path) =>
        localStep repo fun repo =>
          (readFile drained.files path).bind (ops.unbundleAt repo)
  based.bind fun based =>
    installSegments ops drained.files based drained.segments
      needed.reverse

/-- Download everything that is needed, then install it. -/
def fetchFull
    (bucketPrefix : Option Text)
    (completion : Completion)
    (refName : RefName)
    (repo : ρ)
    (needed : List ChainSegment)
    (baselineSha : Option Sha) : Program (FetchError × ρ) ρ :=
  if needed.isEmpty && baselineSha.isNone then .done repo
  else
    match spawnFullDownloads bucketPrefix refName needed baselineSha with
    | .error error => .fail (.packchain error, repo)
    | .ok downloads => do
        let drained ←
          drainFullDownloads (completion.arrange downloads)
        match drained.firstErr with
        | some error => .fail (error, repo)
        | none => Prog.ofExcept (installDrained ops repo drained needed)

/-! ## Shallow fetches -/

/-- Install the baseline when the chain is used up without a boundary. -/
def fetchShallowBaseline
    (bucketPrefix : Option Text)
    (refName : RefName)
    (repo : ρ)
    (baselineSha : Option Sha) : Program (FetchError × ρ) ρ :=
  match baselineSha with
  | none => .done repo
  | some sha => do
      let body ←
        (downloadBaseline (bundleKey bucketPrefix refName sha)).mapError
          fun error => (error, repo)
      Prog.ofExcept
        (localStep repo fun repo => ops.unbundleAt repo body)

/-- One segment at a time, until the boundary is not empty. -/
def fetchShallow
    (bucketPrefix : Option Text)
    (refName : RefName)
    (tipSha : Sha)
    (baselineSha : Option Sha)
    (depth : Nat) :
    ρ → List ChainSegment → Program (FetchError × ρ) ρ
  | repo, [] =>
      fetchShallowBaseline ops bucketPrefix refName repo baselineSha
  | repo, segment :: older =>
      match segmentPackSha segment with
      | .error error => .fail (.packchain error, repo)
      | .ok _ => do
          let body ←
            (downloadPack
                (packKeyFromRelative bucketPrefix segment.pack)).mapError
              fun error => (error, repo)
          let installed ←
            Prog.ofExcept
              (localStep repo fun repo => ops.installPack repo body)
          match ops.shallowBoundaries installed tipSha depth with
          | .error error => .fail (.git error, installed)
          | .ok [] =>
              fetchShallow bucketPrefix refName tipSha baselineSha depth
                installed older
          | .ok (_ :: _) => return installed

/-! ## Attempts and retries -/

/-- One walk of the chain and what it asks for. -/
def fetchOnce
    (bucketPrefix : Option Text)
    (completion : Completion)
    (refName : RefName)
    (sha : Sha)
    (depth : Option Nat)
    (repo : ρ) : Program (FetchError × ρ) ρ := do
  match ← (loadChain bucketPrefix refName).mapError
      fun error => (FetchError.packchain error, repo) with
  | none => .fail (.packchain (.chainAbsent refName.text), repo)
  | some chain =>
      let selected := selectNeededSegments ops repo chain.segments
      let baselineSha := if selected.2 then some chain.fullAt else none
      match depth with
      | some depth =>
          fetchShallow ops bucketPrefix refName sha baselineSha depth repo
            selected.1
      | none =>
          fetchFull ops bucketPrefix completion refName repo selected.1
            baselineSha

/-- How often a fetch reads the chain again after a missing pack. -/
def packMissingMaxRetries : Nat := 3

omit [Platform] in
/-- The content name in a `packs/<sha>.{pack,idx}` key. -/
def packShaFromFullKey
    (bucketPrefix : Option Text)
    (key : Text) : Option Sha40 := do
  let unprefixed ← relativeKey bucketPrefix key
  let file ← stripPrefix (lit "packs/") unprefixed
  let stem ←
    (stripSuffix (lit ".pack") file).or (stripSuffix (lit ".idx") file)
  Sha40.tryNew stem

/-- Whether a segment of the chain has the pack of a key. -/
def segmentsReference (missing : Sha40) :
    List ChainSegment → Except PackchainError Bool
  | [] => .ok false
  | segment :: older =>
      match segmentPackSha segment with
      | .error error => .error error
      | .ok sha =>
          if sha = missing then .ok true
          else segmentsReference missing older

/-- Whether a chain still names a pack that was missing. -/
def chainReferencesPackKey
    (bucketPrefix : Option Text)
    (chain : ChainManifest)
    (missingKey : Text) : Except PackchainError Bool :=
  match packShaFromFullKey bucketPrefix missingKey with
  | none => .ok false
  | some missing => segmentsReference missing chain.segments

/--
Fetch, again while packs go missing that the chain has let go of.  The
attempts are told apart by how many may follow.
-/
def fetchWithPackMissingRetries
    (bucketPrefix : Option Text)
    (completions : Nat → Completion)
    (refName : RefName)
    (sha : Sha)
    (depth : Option Nat) :
    Nat → ρ → Program (FetchError × ρ) ρ
  | remaining, repo => do
      match ← (fetchOnce ops bucketPrefix (completions remaining) refName
          sha depth repo).attempt with
      | .ok fetched => return fetched
      | .error (.packchain (.packMissing key), left) => do
          match ← (loadChain bucketPrefix refName).mapError
              fun error => (FetchError.packchain error, left) with
          | none =>
              .fail (.packchain (.chainAbsent refName.text), left)
          | some reloaded =>
              match chainReferencesPackKey bucketPrefix reloaded key with
              | .error error => .fail (.packchain error, left)
              | .ok true => .fail (.packchain (.packMissing key), left)
              | .ok false =>
                  match remaining with
                  | 0 =>
                      .fail
                        (.packchain
                          (.concurrentGcRetriesExhausted key
                            packMissingMaxRetries),
                          left)
                  | remaining + 1 =>
                      fetchWithPackMissingRetries bucketPrefix completions
                        refName sha depth remaining left
      | .error (error, left) => .fail (error, left)

/-- A local repository in one session of the helper. -/
structure FetchSession (ρ : Type) where
  repo : ρ
  /-- The names fetched in this session. -/
  fetchedRefs : List Sha
  /-- The shallow boundaries collected for the batch. -/
  boundaries : List Sha

/-- One `fetch <sha> <ref>` of a batch. -/
def fetchOne
    (bucketPrefix : Option Text)
    (completions : Nat → Completion)
    (refName : RefName)
    (sha : Sha)
    (depth : Option Nat)
    (session : FetchSession ρ) :
    Program (FetchError × FetchSession ρ) (FetchSession ρ) := do
  let fetched ←
    if sha ∈ session.fetchedRefs then pure session
    else do
      let repo ←
        (fetchWithPackMissingRetries ops bucketPrefix completions refName
            sha depth packMissingMaxRetries session.repo).mapError
          fun failure => (failure.1, { session with repo := failure.2 })
      pure
        { session with
          repo := repo
          fetchedRefs := sha :: session.fetchedRefs }
  match depth with
  | none => return fetched
  | some depth =>
      match ops.shallowBoundaries fetched.repo sha depth with
      | .error error => .fail (.git error, fetched)
      | .ok found =>
          return { fetched with boundaries := fetched.boundaries ++ found }

end Local

end GitRemoteObjectStore.Packchain
