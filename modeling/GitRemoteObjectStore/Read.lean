import GitRemoteObjectStore.Delta
import GitRemoteObjectStore.Fetch
import GitRemoteObjectStore.Library.Outcomes

/-!
# Reading one blob

`read_blob` of the packchain engine.  Everything outside the reader answers
requests: the store, the index cache that other readers share, and the
crates that parse an index, parse an entry header and inflate.  An answer is
bound by its type alone, so that a bucket may hold anything and change at
any time.  Arithmetic on `u64` wraps around, as in a release build.
-/

namespace GitRemoteObjectStore.Read

open CallProgram Prog DeltaFormat
open Packchain (chainReferencesPackKey packMissingMaxRetries)

/-- The git object id of content of a kind, or why it cannot be computed. -/
class ObjectHash where
  computeHash : ObjectKind → Bytes → Except Text Sha

/-! ## Requests -/

/--
A parsed pack index.  An index that is accepted may still be corrupt: that
the library's accessors do not panic on one is assumed here, and nothing of
what they return.
-/
structure IndexFile where
  lookup : Sha → Option Nat
  packOffsetAtIndex : Nat → UInt64
  sortedOffsets : List UInt64

/-- An index as it is cached, its offsets in ascending order. -/
structure CachedIndex where
  file : IndexFile
  sortedOffsets : List UInt64

/-- What a pack entry says it is. -/
inductive EntryHeader where
  | commit
  | tree
  | blob
  | tag
  | ofsDelta (baseDistance : UInt64)
  | refDelta (baseId : Sha)

/-- Where an inflater stands. -/
inductive InflateStatus where
  | ok
  | bufError
  | streamEnd

section Requests

variable [Target]

/-- An entry parsed from bytes; its data begin where its header ends. -/
structure PackEntry (raw : Slice) (packOffset : UInt64) where
  header : EntryHeader
  decompressedSize : UInt64
  dataOffset : UInt64
  behindHeader :
    ∃ consumed ≤ raw.bytes.length,
      dataOffset = packOffset + UInt64.ofNat consumed

/-- What one step of an inflater leaves in a buffer of the given size. -/
structure Decompressed (size : Nat) where
  status : InflateStatus
  totalOut : UInt64
  out : Slice
  whole : out.bytes.length = size

/-- A request of the reader. -/
inductive ReadCall where
  | store (request : Call)
  | size (key : Text)
  | range (key : Text) (start stop : UInt64)
  | sleep (milliseconds : Nat)
  | cacheGet (bucketPrefix : Text) (contentSha : Sha40)
  | cacheInsert
      (bucketPrefix : Text) (contentSha : Sha40) (index : CachedIndex)
  | parseIndex (body : Body)
  | parseEntry (raw : Slice) (packOffset : UInt64)
  | decompress (input : Bytes) (size : Nat)

/-- What a request is answered with. -/
@[reducible]
def ReadReply : ReadCall → Type
  | .store request => Reply request
  | .size _ => Except ObjectStoreError UInt64
  | .range _ _ _ => Except ObjectStoreError Slice
  | .sleep _ => Unit
  | .cacheGet _ _ => Option CachedIndex
  | .cacheInsert _ _ _ => Unit
  | .parseIndex _ => Except Text IndexFile
  | .parseEntry raw packOffset => Except Text (PackEntry raw packOffset)
  | .decompress _ size => Except Unit (Decompressed size)

/-- A program of the reader. -/
abbrev Reader (α : Type) : Type :=
  Prog ReadCall ReadReply Halt α

/-- A program of the store, as a part of the reader. -/
def onStore {ε α : Type} : Program ε α → Prog ReadCall ReadReply ε α
  | .done value => .done value
  | .fail error => .fail error
  | .call request next =>
      .call (.store request) fun reply => onStore (next reply)

/-- `PackchainError::MalformedPackEntry`. -/
def malformedPackEntry (offset : UInt64) (reason : Text) : Halt :=
  .error (.malformedPackEntry offset.toNat reason)

/-- The decimal digits of a number. -/
def digits (number : Nat) : Text :=
  (Nat.repr number).toList

/-! ## Ranges -/

/--
`store.get_bytes_range`: an empty range asks nothing, an inverted one is
refused, and so is a body of another length than was asked for.
-/
def getBytesRange (key : Text) (start stop : UInt64) :
    Prog ReadCall ReadReply ObjectStoreError Slice :=
  if start = stop then .done ⟨[], Nat.zero_le _⟩
  else if stop < start then
    .fail (.rangeNotSatisfiable key start.toNat stop.toNat)
  else
    .call (.range key start stop) fun reply =>
      match reply with
      | .error error => .fail error
      | .ok body =>
          if body.bytes.length = (stop - start).toNat then .done body
          else .fail (.rangeNotSatisfiable key start.toNat stop.toNat)

/-- `MAX_RANGE_BYTES`. -/
def maxRangeBytes : UInt64 := 1024 * 1024 * 1024

/-- `MAX_RANGE_EXPANSIONS`. -/
def maxRangeExpansions : Nat := 6

/-- `u64::saturating_add` of a length. -/
def saturatingAdd (offset : UInt64) (length : Nat) : UInt64 :=
  if offset.toNat + length < 2 ^ 64 then offset + UInt64.ofNat length
  else UInt64.ofNat (2 ^ 64 - 1)

/-- `u64::saturating_sub`. -/
def saturatingSub (left right : UInt64) : UInt64 :=
  if left < right then 0 else left - right

/-- `load_index`: the cached index of a pack, or the one in the bucket. -/
def loadIndex (bucketPrefix : Option Text) (contentSha : Sha40) :
    Reader CachedIndex :=
  .call (.cacheGet (prefixText bucketPrefix) contentSha) fun hit =>
    match hit with
    | some index => .done index
    | none => do
        let key := packIdxKey bucketPrefix contentSha
        let body ←
          (onStore (Store.getBytes key)).mapError fun error =>
            match error with
            | .notFound _ => .error (.packMissing key)
            | error => .error (.store error)
        .call (.parseIndex body) fun parsed =>
          match parsed with
          | .error reason =>
              .fail
                (malformedPackEntry 0 (lit "idx parse: " ++ reason))
          | .ok file =>
              let cached : CachedIndex := ⟨file, file.sortedOffsets⟩
              .call
                (.cacheInsert (prefixText bucketPrefix) contentSha cached)
                fun _ => .done cached

/-- Where the entry at an offset ends, asking for the pack's size if need be. -/
def entryEnd
    (bucketPrefix : Option Text)
    (contentSha : Sha40)
    (packOffset : UInt64)
    (index : CachedIndex) : Reader UInt64 :=
  match index.sortedOffsets.find? fun offset => packOffset < offset with
  | some next => .done next
  | none =>
      let pack := packKey bucketPrefix contentSha
      .call (.size pack) fun reply =>
        match reply with
        | .error (.notFound _) => .fail (.error (.packMissing pack))
        | .error error => .fail (.error (.store error))
        | .ok size =>
            if size ≤ packOffset then
              .fail
                (malformedPackEntry packOffset
                  (lit "entry offset beyond pack EOF"))
            else .done size

/-- `fetch_entry_bytes`. -/
def fetchEntryBytes
    (bucketPrefix : Option Text)
    (contentSha : Sha40)
    (packOffset : UInt64)
    (index : CachedIndex) : Reader Slice := do
  let stop ← entryEnd bucketPrefix contentSha packOffset index
  let span := saturatingSub stop packOffset
  if maxRangeBytes < span then
    .fail
      (malformedPackEntry packOffset
        (lit "entry range " ++ digits span.toNat ++ lit " bytes exceeds " ++
          digits maxRangeBytes.toNat ++ lit "-byte cap"))
  else
    let pack := packKey bucketPrefix contentSha
    (getBytesRange pack packOffset stop).mapError fun error =>
      match error with
      | .notFound _ => .error (.packMissing pack)
      | error => .error (.store error)

/-! ## Inflating -/

/-- Why a stream was not inflated. -/
inductive InflateOutcome where
  | needMoreInput
  | failed

/-- `inflate_to`. -/
def inflateTo (input : Bytes) (announcedSize : Nat) :
    Prog ReadCall ReadReply InflateOutcome Slice :=
  .call (.decompress input announcedSize) fun reply =>
    match reply with
    | .error _ => .fail .failed
    | .ok state =>
        match state.status with
        | .streamEnd =>
            if usizeMax < state.totalOut.toNat then .fail .failed
            else if state.totalOut.toNat ≠ announcedSize then .fail .failed
            else .done state.out
        | .ok => .fail .needMoreInput
        | .bufError => .fail .needMoreInput

/--
The loop of `inflate_with_retry`.  The turns are told apart by how many
expansions may follow.
-/
def inflateFrom
    (bucketPrefix : Option Text)
    (contentSha : Sha40)
    (packOffset : UInt64)
    (headerSize decompressedSize : Nat) :
    Nat → Slice → UInt64 → Reader Slice
  | remaining, buffer, currentEnd => do
      let compressed ←
        ofExcept (subslice buffer.bytes headerSize buffer.bytes.length)
      match ← (inflateTo compressed decompressedSize).attempt with
      | .ok inflated => return inflated
      | .error .failed => .fail (.error (.decompress packOffset.toNat))
      | .error .needMoreInput =>
          match remaining with
          | 0 =>
              .fail
                (malformedPackEntry packOffset
                  (lit
                    "ran out of compressed bytes after maximum range expansion"))
          | remaining + 1 =>
              let size := currentEnd - packOffset
              let nextSize := min (size * 2) maxRangeBytes
              if nextSize ≤ size then
                .fail
                  (malformedPackEntry packOffset
                    (lit "range expansion hit safety cap"))
              else do
                let newEnd := packOffset + nextSize
                let pack := packKey bucketPrefix contentSha
                let bytes ←
                  (getBytesRange pack packOffset newEnd).mapError
                    fun error =>
                      match error with
                      | .notFound _ => .error (.packMissing pack)
                      | .rangeNotSatisfiable _ _ _ =>
                          malformedPackEntry packOffset
                            (lit "zlib stream truncated at pack EOF")
                      | error => .error (.store error)
                inflateFrom bucketPrefix contentSha packOffset headerSize
                  decompressedSize remaining bytes newEnd

/-- `inflate_with_retry`. -/
def inflateWithRetry
    (bucketPrefix : Option Text)
    (contentSha : Sha40)
    (packOffset : UInt64)
    (raw : Slice)
    (headerSize decompressedSize : Nat) : Reader Slice :=
  inflateFrom bucketPrefix contentSha packOffset headerSize
    decompressedSize maxRangeExpansions raw
    (saturatingAdd packOffset raw.bytes.length)

/-! ## Objects -/

variable [ObjectHash]

/-- `verify_content_hash`. -/
def verifyContentHash (target : Sha) (resolved : ResolvedObject) :
    Except Halt Unit :=
  match
    ObjectHash.computeHash resolved.kind resolved.payload.bytes with
  | .error reason =>
      .error
        (malformedPackEntry 0
          (lit "content-hash computation failed: " ++ reason))
  | .ok actual =>
      if actual ≠ target then
        .error (.error (.contentHashMismatch target actual))
      else .ok ()

/-- How an entry is decoded: its pack, its offset and its bytes. -/
abbrev Decoder : Type :=
  Sha40 → UInt64 → Slice → Reader ResolvedObject

/-- `read_object_from_chain`, with the decoder it calls. -/
def readObjectFrom
    (bucketPrefix : Option Text)
    (decode : Decoder)
    (target : Sha) :
    List ChainSegment → Reader ResolvedObject
  | [] => .fail (.error (.blobNotInChain target []))
  | segment :: older => do
      let contentSha ←
        ofExcept ((segmentPackSha segment).mapError Halt.error)
      let index ← loadIndex bucketPrefix contentSha
      match index.file.lookup target with
      | none => readObjectFrom bucketPrefix decode target older
      | some entry => do
          let packOffset := index.file.packOffsetAtIndex entry
          let raw ← fetchEntryBytes bucketPrefix contentSha packOffset index
          let resolved ← decode contentSha packOffset raw
          ofExcept (verifyContentHash target resolved)
          return resolved

/-- `MAX_DELTA_DEPTH`. -/
def maxDeltaDepth : Nat := 50

/--
`decode_entry`.  The depth that is counted up to `MAX_DELTA_DEPTH` is counted
down here: the number is how many entries may still be decoded.
-/
def decodeEntry
    (bucketPrefix : Option Text)
    (chain : List ChainSegment) : Nat → Decoder
  | 0, _, _, _ => .fail (.error (.deltaTooDeep maxDeltaDepth))
  | depth + 1, contentSha, packOffset, raw =>
      .call (.parseEntry raw packOffset) fun parsed =>
        match parsed with
        | .error reason => .fail (malformedPackEntry packOffset reason)
        | .ok entry => do
            let headerSize := (entry.dataOffset - packOffset).toNat
            if usizeMax < headerSize then
              .fail
                (malformedPackEntry packOffset
                  (lit "entry header size exceeds usize"))
            else if maxDecompressedBytes < entry.decompressedSize then
              .fail
                (malformedPackEntry packOffset
                  (lit "decompressed object size " ++
                    digits entry.decompressedSize.toNat ++
                    lit " exceeds " ++ digits maxDecompressedBytes.toNat ++
                    lit "-byte cap"))
            else if usizeMax < entry.decompressedSize.toNat then
              .fail
                (malformedPackEntry packOffset
                  (lit "decompressed object size exceeds usize"))
            else do
              let inflated ←
                inflateWithRetry bucketPrefix contentSha packOffset raw
                  headerSize entry.decompressedSize.toNat
              match entry.header with
              | .blob => return ⟨inflated, .blob⟩
              | .commit => return ⟨inflated, .commit⟩
              | .tree => return ⟨inflated, .tree⟩
              | .tag => return ⟨inflated, .tag⟩
              | .ofsDelta baseDistance =>
                  if packOffset < baseDistance then
                    .fail
                      (malformedPackEntry packOffset
                        (lit
                          "ofs-delta base distance underflows pack offset"))
                  else do
                    let baseOffset := packOffset - baseDistance
                    let index ← loadIndex bucketPrefix contentSha
                    let baseBytes ←
                      fetchEntryBytes bucketPrefix contentSha baseOffset
                        index
                    let base ←
                      decodeEntry bucketPrefix chain depth contentSha
                        baseOffset baseBytes
                    ofExcept (applyDelta base inflated)
              | .refDelta baseId => do
                  let base ←
                    readObjectFrom bucketPrefix
                      (decodeEntry bucketPrefix chain depth) baseId chain
                  ofExcept (applyDelta base inflated)

/-- `read_object_from_chain`, at the beginning of an attempt. -/
def readObjectFromChain
    (bucketPrefix : Option Text)
    (segments : List ChainSegment)
    (target : Sha) : Reader ResolvedObject :=
  readObjectFrom bucketPrefix
    (decodeEntry bucketPrefix segments (maxDeltaDepth + 1)) target segments

/-! ## Attempts -/

/-- `PACK_MISSING_RETRY_BACKOFFS`, in milliseconds. -/
def packMissingRetryBackoffs : List Nat := [100, 500, 2000]

variable [Platform]

/--
One turn of the loop of `read_with_pack_missing_retries`.  What comes next
when the reloaded chain has let go of the missing pack is left open.
-/
def readTurn
    (bucketPrefix : Option Text)
    (remoteRef : RefName)
    (refName : Text)
    (blobOid : Sha)
    (letGo : Text → ChainManifest → Reader ResolvedObject)
    (current : ChainManifest) : Reader ResolvedObject := do
  match ←
    (readObjectFromChain bucketPrefix current.segments blobOid).attempt
  with
  | .ok resolved => return resolved
  | .error (.error (.packMissing missingKey)) => do
      match ←
        (onStore (loadChain bucketPrefix remoteRef)).mapError Halt.error
      with
      | none => .fail (.error (.chainAbsent refName))
      | some reloaded => do
          let references ←
            ofExcept
              ((chainReferencesPackKey bucketPrefix reloaded
                missingKey).mapError Halt.error)
          if references then .fail (.error (.packMissing missingKey))
          else letGo missingKey reloaded
  | .error halt => .fail halt

/--
The loop of `read_with_pack_missing_retries`.  The attempts are told apart by
how many may follow.
-/
def readAttempts
    (bucketPrefix : Option Text)
    (remoteRef : RefName)
    (refName : Text)
    (blobOid : Sha) :
    Nat → ChainManifest → Reader ResolvedObject
  | 0, current =>
      readTurn bucketPrefix remoteRef refName blobOid
        (fun missingKey _ =>
          .fail
            (.error
              (.concurrentGcRetriesExhausted missingKey
                packMissingMaxRetries)))
        current
  | remaining + 1, current =>
      readTurn bucketPrefix remoteRef refName blobOid
        (fun _ reloaded =>
          let attempt := packMissingMaxRetries - (remaining + 1)
          match packMissingRetryBackoffs[attempt]? with
          | none => .fail .panic
          | some backoff =>
              .call (.sleep backoff) fun _ =>
                readAttempts bucketPrefix remoteRef refName blobOid
                  remaining reloaded)
        current

/-! ## Paths -/

omit [Target] [ObjectHash] [Platform] in
/-- `parse_path`. -/
def parsePath (path : Text) : Except PackchainError (List Text) :=
  if path = [] then .error (.malformedPath path (lit "empty path"))
  else if path.head? = some '/' then
    .error (.malformedPath path (lit "absolute paths are not allowed"))
  else
    match (path.splitOn '/').findSome? refuse? with
    | some reason => .error (.malformedPath path reason)
    | none => .ok (path.splitOn '/')
where
  refuse? (segment : Text) : Option Text :=
    if segment = [] then
      some (lit "empty segment (consecutive or trailing slash)")
    else if segment = lit ".." then
      some (lit "`..` segments are not allowed")
    else if segment = lit "." then
      some (lit "`.` segments are not allowed")
    else none

/-- The directory at the end of a path of directories. -/
def descend (current : List (Text × PathNode)) (segment : Text) :
    Option (List (Text × PathNode)) :=
  match current.lookup segment with
  | some (.tree children) => some children
  | _ => none

/-- `walk_path`. -/
def walkPath
    (root : List (Text × PathNode))
    (segments : List Text)
    (refName path : Text) : Except Halt Sha40 :=
  match segments.getLast? with
  | none => .error .panic
  | some last =>
      match segments.dropLast.foldlM descend root with
      | none => .error (.error (.pathNotFound refName path))
      | some current =>
          match current.lookup last with
          | some (.blob sha) => .ok sha
          | some (.tree _) => .error (.error (.pathNotABlob path))
          | none => .error (.error (.pathNotFound refName path))

/-! ## The entry point -/

/-- A connected remote. -/
structure Remote where
  engine : StorageEngine
  bucketPrefix : Text

/-- The part of `read_blob` behind the path index. -/
def readResolved
    (bucketPrefix : Option Text)
    (remoteRef : RefName)
    (refName path : Text)
    (blobSha : Sha40)
    (chain : ChainManifest) : Reader Slice := do
  match ←
    (readAttempts bucketPrefix remoteRef refName blobSha
      packMissingMaxRetries chain).attempt
  with
  | .ok resolved =>
      if resolved.kind = .blob then return resolved.payload
      else .fail (.error (.blobNotInChain blobSha path))
  | .error (.error (.blobNotInChain sha inner)) =>
      if sha = blobSha then .fail (.error (.blobNotInChain blobSha path))
      else .fail (.error (.blobNotInChain sha inner))
  | .error halt => .fail halt

/-- `read_blob`. -/
def readBlob (remote : Remote) (refName path : Text) : Reader Slice := do
  if remote.engine ≠ .packchain then
    .fail (.error (.wrongEngine remote.engine))
  else do
    let segments ← ofExcept ((parsePath path).mapError Halt.error)
    match RefName.new refName with
    | none => .fail (.error (.invalidRefName refName))
    | some remoteRef => do
        let bucketPrefix := prefixOpt remote.bucketPrefix
        match ←
          (onStore (loadChain bucketPrefix remoteRef)).mapError Halt.error
        with
        | none => .fail (.error (.chainAbsent refName))
        | some chain => do
            match ←
              (onStore (loadPathIndex bucketPrefix remoteRef)).mapError
                Halt.error
            with
            | none => .fail (.error (.pathIndexAbsent refName))
            | some pathIndex =>
                if pathIndex.tip ≠ chain.tip then
                  .fail
                    (.error
                      (.transientChainPathIndexMismatch refName chain.tip
                        pathIndex.tip))
                else do
                  let blobSha ←
                    ofExcept
                      (walkPath pathIndex.tree segments refName path)
                  readResolved bucketPrefix remoteRef refName path blobSha
                    chain

end Requests

end GitRemoteObjectStore.Read
