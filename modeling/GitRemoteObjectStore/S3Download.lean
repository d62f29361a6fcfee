import GitRemoteObjectStore.Library.DeltaFormat
import GitRemoteObjectStore.Library.Outcomes
import GitRemoteObjectStore.Schema

/-!
# Downloads from S3

`get_to_file` asks for the object's metadata, downloads the body into a
temporary file and renames it to its destination.  A large body comes in
ranges that many tasks request and write at once; an object that changes on
the way is noticed by its entity tag, and the download is tried once more.
Other clients may replace the object between any two requests.
-/

namespace GitRemoteObjectStore.S3

open CallProgram Prog DeltaFormat

/-- The versions of an object; distinct ones have distinct entity tags. -/
class KeyVersions where
  Version : Type
  body : Version → Bytes
  etag : Version → Text
  etag_injective : Function.Injective etag

/-- What a HEAD request returns. -/
structure HeadOutput where
  contentLength : Option Int
  lastModified : Option Int
  eTag : Option Text

/-- The steps on local files that may fail. -/
inductive FileStep where
  | create
  | openFile
  | setLen
  | write
  | flush
deriving DecidableEq

/-- What a download asks for. -/
inductive Call where
  | head
  | getObject (ifMatch : Option Text)
  | getRange (start stop : Nat) (ifMatch : Option Text)
  | file (step : FileStep)
  /-- Write a range; a failed write leaves some of its bytes. -/
  | writeRange
  /-- Which of the concurrent moves comes next. -/
  | schedule (count : Nat)
  /-- Rename a temporary file with this content to the destination. -/
  | persist (content : Bytes)

/-- A body in pieces, up to a transport failure if there is one. -/
structure Stream where
  pieces : List Bytes
  broken : Bool

abbrev Reply : Call → Type
  | .head => Except ObjectStoreError HeadOutput
  | .getObject _ => Except ObjectStoreError Stream
  | .getRange _ _ _ => Except ObjectStoreError Stream
  | .file _ => Except Unit Unit
  | .writeRange => Except Nat Unit
  | .schedule _ => Nat
  | .persist _ => Except Unit Unit

abbrev Run (α : Type) : Type :=
  Prog Call Reply ObjectStoreError α

/-! ## Requests -/

/-- What is kept of an object's metadata. -/
structure Meta where
  size : Nat
  etag : Option Text

/-- A negative length, which the wire type allows, is clamped to zero. -/
def headOutputToMeta (output : HeadOutput) : Except ObjectStoreError Meta :=
  match output.contentLength with
  | none => .error .other
  | some rawSize =>
      match output.lastModified with
      | none => .error .other
      | some _ => .ok ⟨rawSize.toNat, output.eTag⟩

def head : Run Meta :=
  .call .head fun reply => ofExcept (reply.bind headOutputToMeta)

def fileStep (step : FileStep) : Run Unit :=
  .call (.file step) fun reply => ofExcept (reply.mapError fun _ => .other)

def persistTemp (content : Bytes) : Run Unit :=
  .call (.persist content) fun reply =>
    ofExcept (reply.mapError fun _ => .other)

/-- `collect` -/
def Stream.collect (stream : Stream) : Except ObjectStoreError Bytes :=
  if stream.broken then .error .network else .ok stream.pieces.flatten

/-! ## Small objects -/

/-- Write the pieces of a body as they come. -/
def writePieces : Bytes → List Bytes → Run Bytes
  | content, [] => .done content
  | content, piece :: rest => do
      fileStep .write
      writePieces (content ++ piece) rest

/-- Stream a small object to the temporary file. -/
def downloadSingle (etag : Option Text) : Run Bytes := do
  let stream ← .call (.getObject etag) ofExcept
  fileStep .openFile
  let content ← writePieces [] stream.pieces
  if stream.broken then .fail .network
  else do
    fileStep .flush
    return content

/-! ## Large objects -/

def multipartThreshold : Nat := 25 * 1024 * 1024

def multipartChunkSize : Nat := 16 * 1024 * 1024

def multipartMaxConcurrency : Nat := 8

/--
The ranges from an offset on.  Sizes come from an `i64`, so that no sum here
reaches `2^64`.
-/
def rangesFrom (size chunkSize start : Nat) : List (Nat × Nat) :=
  if start < size ∧ 0 < chunkSize then
    let stop := min (start + chunkSize - 1) (size - 1)
    (start, stop) :: rangesFrom size chunkSize (stop + 1)
  else []
termination_by size - start

/-- Plan inclusive byte ranges for a download. -/
def planRanges (size chunkSize : Nat) : List (Nat × Nat) :=
  rangesFrom size chunkSize 0

/-- One of the tasks that download a range each. -/
inductive Task where
  | waiting (start stop : Nat)
  | received (start stop : Nat) (bytes : Bytes)
  | ended
deriving DecidableEq

/-- The file, the tasks, and the outcomes not joined yet. -/
structure Transfer where
  file : Bytes
  tasks : List Task
  joinable : List (Except ObjectStoreError Unit)

/-- What may happen next. -/
inductive Move where
  | request (index start stop : Nat)
  | write (index start : Nat) (bytes : Bytes)
  | join (outcome : Except ObjectStoreError Unit)

/-- `seek` and `write_all` -/
def writeAt (file : Bytes) (start : Nat) (bytes : Bytes) : Bytes :=
  file.take start ++ bytes ++ file.drop (start + bytes.length)

namespace Transfer

/-- The permits that are taken. -/
def inFlight (transfer : Transfer) : Nat :=
  transfer.tasks.countP fun task =>
    match task with
    | .received _ _ _ => true
    | _ => false

/-- What a task can do; a request takes a permit. -/
def taskMove (transfer : Transfer) (index : Nat) : Task → Option Move
  | .waiting start stop =>
      if transfer.inFlight < multipartMaxConcurrency then
        some (.request index start stop)
      else none
  | .received start _ bytes => some (.write index start bytes)
  | .ended => none

/-- The moves possible now. -/
def moves (transfer : Transfer) : List Move :=
  (transfer.tasks.zipIdx.filterMap fun task =>
      transfer.taskMove task.2 task.1) ++
    (transfer.joinable.take 1).map Move.join

/-- A task has ended. -/
def finish
    (transfer : Transfer)
    (index : Nat)
    (file : Bytes)
    (outcome : Except ObjectStoreError Unit) : Transfer where
  file := file
  tasks := transfer.tasks.set index .ended
  joinable := transfer.joinable ++ [outcome]

end Transfer

/-- Request a range and check that it is complete. -/
def requestRange
    (etag : Option Text)
    (start stop : Nat) : Run Bytes := do
  let stream ← .call (.getRange start stop etag) ofExcept
  let bytes ← ofExcept stream.collect
  if bytes.length ≠ stop - start + 1 then .fail .other
  else return bytes

/-- One move of the concurrent part. -/
def advance
    (etag : Option Text)
    (transfer : Transfer) : Move → Run Transfer
  | .request index start stop => do
      match ← (requestRange etag start stop).attempt with
      | .ok bytes =>
          return { transfer with
            tasks := transfer.tasks.set index (.received start stop bytes) }
      | .error error =>
          return transfer.finish index transfer.file (.error error)
  | .write index start bytes =>
      .call .writeRange fun reply =>
        match reply with
        | .ok () =>
            .done
              (transfer.finish index (writeAt transfer.file start bytes)
                (.ok ()))
        | .error count =>
            .done
              (transfer.finish index
                (writeAt transfer.file start (bytes.take count))
                (.error .other))
  | .join (.ok ()) =>
      .done { transfer with joinable := transfer.joinable.tail }
  | .join (.error error) => .fail error

/-- Move after move, in any order, until nothing is left to do. -/
def transferAll
    (etag : Option Text) : Nat → Transfer → Run Transfer
  | 0, transfer => .done transfer
  | count + 1, transfer =>
      match transfer.moves with
      | [] => .done transfer
      | first :: others =>
          .call (.schedule (others.length + 1)) fun choice =>
            advance etag transfer
                ((first :: others).getD choice first) >>=
              transferAll etag count

/-- The tasks before any has begun; a file of zeros. -/
def Transfer.start (size : Nat) : Transfer where
  file := List.replicate size 0
  tasks :=
    (planRanges size multipartChunkSize).map fun range =>
      .waiting range.1 range.2
  joinable := []

/-- Each task makes three moves: it requests, it writes, and it is joined. -/
def downloadMultipart (size : Nat) (etag : Option Text) : Run Bytes := do
  fileStep .openFile
  fileStep .setLen
  let transfer ←
    transferAll etag (3 * (planRanges size multipartChunkSize).length)
      (.start size)
  fileStep .flush
  return transfer.file

/-! ## Whole downloads -/

/-- The content of the temporary file. -/
def downloadTemp : Run Bytes := do
  let found ← head
  fileStep .create
  if found.size = 0 then return []
  else if found.size ≤ multipartThreshold then downloadSingle found.etag
  else downloadMultipart found.size found.etag

/-- Metadata, temporary file, download, rename. -/
def headThenDownload : Run Unit := do
  let content ← downloadTemp
  persistTemp content

/-- Download, and once more when the object has changed on the way. -/
def getToFile (hasParent : Bool) : Run Unit :=
  if hasParent then do
    match ← headThenDownload.attempt with
    | .error (.preconditionFailed _) => headThenDownload
    | other => ofExcept other
  else .fail .other

/-! ## The object and the other clients -/

variable [KeyVersions]

open KeyVersions

/-- What happens before and at one request. -/
structure Turn where
  /-- What others leave of the object, if they replace or delete it. -/
  replaced : List (Option Version)
  /-- The request fails, whatever the object is. -/
  fault : Option ObjectStoreError
  /-- The lengths in which a body is delivered. -/
  cuts : List Nat
  broken : Bool
  /-- The scheduler's choice, or how much a failed write has written. -/
  choice : Nat

/-- The object's history, newest first, and the destination file. -/
structure World where
  key : Text
  history : List (Option Version)
  dest : Option Bytes
  agenda : List Turn

/-- A turn in which nothing happens. -/
def Turn.calm : Turn :=
  ⟨[], none, [], false, 0⟩

/-- A body in pieces of the lengths given, and the rest of it. -/
def piecesOf : List Nat → Bytes → List Bytes
  | [], body => [body]
  | count :: cuts, body => body.take count :: piecesOf cuts (body.drop count)

/-- The body on the wire; a broken transfer lacks its last piece. -/
def Turn.deliver (turn : Turn) (body : Bytes) : Stream where
  pieces :=
    if turn.broken then (piecesOf turn.cuts body).dropLast
    else piecesOf turn.cuts body
  broken := turn.broken

namespace World

def turn (world : World) : Turn :=
  world.agenda.head?.getD .calm

/-- The others have had their turn. -/
def later (world : World) : World where
  key := world.key
  history := world.turn.replaced.reverse ++ world.history
  dest := world.dest
  agenda := world.agenda.tail

/-- The version stored now. -/
def current? (world : World) : Option Version :=
  world.history.head?.join

end World

/-- The version a conditional request is answered from. -/
def World.answer
    (world : World)
    (ifMatch : Option Text) : Except ObjectStoreError Version :=
  match world.turn.fault with
  | some error => .error error
  | none =>
      match world.later.current? with
      | none => .error (.notFound world.key)
      | some version =>
          if ifMatch.all fun tag => tag == etag version then .ok version
          else .error (.preconditionFailed world.key)

/-- A local step, which may fail. -/
def attemptLocally (turn : Turn) : Except Unit Unit :=
  match turn.fault with
  | some _ => .error ()
  | none => .ok ()

/-- A length as the wire has it, if it fits. -/
def wireLength (body : Bytes) : Option Int :=
  if body.length < 2 ^ 63 then some body.length else none

/-- The server, the local files and the scheduler. -/
def serve : Handler Call Reply World := fun request world =>
  match request with
  | .head =>
      ((world.answer none).map fun version =>
          ⟨wireLength (body version), some 0, some (etag version)⟩,
        world.later)
  | .getObject ifMatch =>
      ((world.answer ifMatch).map fun version =>
          world.turn.deliver (body version),
        world.later)
  | .getRange start stop ifMatch =>
      ((world.answer ifMatch).bind fun version =>
          if start < (body version).length then
            .ok
              (world.turn.deliver
                (((body version).drop start).take (stop - start + 1)))
          else .error .other,
        world.later)
  | .file _ => (attemptLocally world.turn, world.later)
  | .writeRange =>
      ((attemptLocally world.turn).mapError fun _ => world.turn.choice,
        world.later)
  | .schedule _ => (world.turn.choice, world.later)
  | .persist content =>
      match attemptLocally world.turn with
      | .error _ => (.error (), world.later)
      | .ok _ => (.ok (), { world.later with dest := some content })

end GitRemoteObjectStore.S3
