import GitRemoteObjectStore.Keys
import GitRemoteObjectStore.Library.Bookkeeping
import GitRemoteObjectStore.Library.RunningTotals
import GitRemoteObjectStore.S3Download
import GitRemoteObjectStore.UploadGuard

/-!
# The agent of git-lfs

The agent reads the events of git-lfs one after the other and answers each
transfer with the progress that is made and with how it ended.  The tasks of a
transfer report the bytes they have moved into a channel, from which they are
forwarded while the transfer is running.  When a transfer gives up its tasks,
those that are running at that moment may still report.
-/

namespace GitRemoteObjectStore.Lfs

open CallProgram Prog DeltaFormat RunningTotals

/-! ## Object ids -/

def sha256HexLen : Nat := 64

inductive LfsOidError where
  | wrongLength (actual : Nat)
  | notLowerHex
deriving DecidableEq

/-- A text that is a SHA-256 in lowercase hex. -/
structure LfsOid where
  asStr : Text
  length : (PercentEncoding.utf8 asStr).length = sha256HexLen
  hex : asStr.all isLowerHex = true

def LfsOid.fromStr (text : Text) : Except LfsOidError LfsOid :=
  if length : (PercentEncoding.utf8 text).length = sha256HexLen then
    if hex : text.all isLowerHex = true then .ok ⟨text, length, hex⟩
    else .error .notLowerHex
  else .error (.wrongLength (PercentEncoding.utf8 text).length)

def LfsOidError.display : LfsOidError → Text
  | .wrongLength actual =>
      lit "LFS oid must be " ++ Nat.toDigits 10 sha256HexLen ++
        lit " chars, got " ++ Nat.toDigits 10 actual
  | .notLowerHex => lit "LFS oid must be lowercase hex (0-9, a-f)"

/-! ## The protocol -/

inductive Event where
  | init (remote : Text)
  | upload (oid : Text) (size : Nat) (path : Text)
  | download (oid : Text) (size : Nat)
  | terminate
deriving DecidableEq

/-- A text, or how an error of the store or of the system displays. -/
inductive Message where
  | text (text : Text)
  | display (error : ObjectStoreError)
  | io

structure ErrorPayload where
  code : Nat
  message : Message

def errCodeGeneric : Nat := 2

def errCodeInit : Nat := 32

/-- What the agent writes. -/
inductive Line where
  | ack (error : Option ErrorPayload)
  | progress (oid : Text) (bytesSoFar bytesSinceLast : Nat)
  | complete
      (oid : Text)
      (path : Option Text)
      (error : Option ErrorPayload)

/-! ## What transfers ask for -/

inductive Request where
  | s3 (call : S3.Call)
  | upload (call : UploadGuard.Call)
  | createDirAll
  | openSource (path : Text)
  | metadata
  | buildStream
  | putObject (key : Text)

abbrev Reply : Request → Type
  | .s3 asked => S3.Reply asked
  | .upload asked => UploadGuard.Reply asked
  | .createDirAll => Except Unit Unit
  | .openSource _ => Except Unit Unit
  | .metadata => Except Unit Nat
  | .buildStream => Except Unit Unit
  | .putObject _ => Except ObjectStoreError Unit

inductive Notice where
  /-- A task reports the bytes that it has moved. -/
  | report (amount : Nat)
  /-- Tasks are aborted that would have reported these amounts. -/
  | abandon (amounts : List Nat)
  /-- The warning that the download is tried once more. -/
  | retrying

/-- How a transfer ends early. -/
inductive Stop where
  | panic
  | error (error : ObjectStoreError)

abbrev Op (ε α : Type) : Type :=
  Prog (Noted Request Notice) (Noted.Reply Reply) ε α

abbrev Run (α : Type) : Type :=
  Op Stop α

def ofS3 {α : Type} :
    S3.Run α → Prog Request Reply ObjectStoreError α
  | .done value => .done value
  | .fail error => .fail error
  | .call request next => .call (.s3 request) fun reply => ofS3 (next reply)

/-- The parts of the S3 store that report nothing. -/
def store {α : Type} (program : S3.Run α) : Run α :=
  quiet ((ofS3 program).mapError .error)

def request (request : Request) : Run (Reply request) :=
  .call (.call request) .done

/-- Local steps fail with an error that says no more. -/
def locally {α : Type} (outcome : Except Unit α) : Run α :=
  ofExcept (outcome.mapError fun _ => .error .other)

def report (amount : Nat) : Run Unit :=
  if 0 < amount then notify (.report amount) else .done ()

/-! ## Downloads -/

/-- Write the pieces of a body as they come. -/
def writePieces : Bytes → List Bytes → Run Bytes
  | content, [] => .done content
  | content, piece :: rest => do
      store (S3.fileStep .write)
      report piece.length
      writePieces (content ++ piece) rest

def downloadSingle (etag : Option Text) : Run Bytes := do
  let stream ← store (.call (.getObject etag) ofExcept)
  store (S3.fileStep .openFile)
  let content ← writePieces [] stream.pieces
  if stream.broken then .fail (.error .network)
  else do
    store (S3.fileStep .flush)
    return content

/-- What a task that has not ended would report. -/
def taskAmount : S3.Task → Nat
  | .waiting start stop => stop - start + 1
  | .received _ _ bytes => bytes.length
  | .ended => 0

/-- One move of the concurrent part; the first failure aborts the tasks. -/
def advance
    (etag : Option Text)
    (transfer : S3.Transfer) : S3.Move → Run S3.Transfer
  | .request index start stop =>
      store (S3.advance etag transfer (.request index start stop))
  | .write index start bytes => do
      match ← request (.s3 .writeRange) with
      | .ok () =>
          report bytes.length
          return transfer.finish index
            (S3.writeAt transfer.file start bytes) (.ok ())
      | .error count =>
          return transfer.finish index
            (S3.writeAt transfer.file start (bytes.take count))
            (.error .other)
  | .join (.ok ()) => store (S3.advance etag transfer (.join (.ok ())))
  | .join (.error error) => do
      notify (.abandon (transfer.tasks.map taskAmount))
      .fail (.error error)

def transferAll
    (etag : Option Text) : Nat → S3.Transfer → Run S3.Transfer
  | 0, transfer => .done transfer
  | count + 1, transfer =>
      match transfer.moves with
      | [] => .done transfer
      | first :: others => do
          let choice ← request (.s3 (.schedule (others.length + 1)))
          let next ←
            advance etag transfer ((first :: others).getD choice first)
          transferAll etag count next

def downloadMultipart (size : Nat) (etag : Option Text) : Run Bytes := do
  store (S3.fileStep .openFile)
  store (S3.fileStep .setLen)
  let transfer ←
    transferAll etag
      (3 * (S3.planRanges size S3.multipartChunkSize).length) (.start size)
  store (S3.fileStep .flush)
  return transfer.file

def downloadTemp : Run Bytes := do
  let found ← store S3.head
  store (S3.fileStep .create)
  if found.size = 0 then return []
  else if found.size ≤ S3.multipartThreshold then downloadSingle found.etag
  else downloadMultipart found.size found.etag

def headThenDownload : Run Unit := do
  let content ← downloadTemp
  store (S3.persistTemp content)

/-- The sink is handed on to the second attempt as it is. -/
def getToFile (hasParent : Bool) : Run Unit :=
  if hasParent then do
    match ← headThenDownload.attempt with
    | .error (.error (.preconditionFailed _)) =>
        notify .retrying
        headThenDownload
    | other => ofExcept other
  else .fail (.error .other)

/-! ## Uploads -/

/-- What a task reports when it has uploaded its part. -/
def partAmount (task : UploadGuard.PartTask) : Nat :=
  match task.source with
  | .body body => body.length
  | .file part => part.length.toNat
  | .copy _ _ _ _ => 0

/-- The reports of the tasks of a multipart upload. -/
def announce :
    (asked : UploadGuard.Call) → UploadGuard.Reply asked → Run Unit
  | .joinNext tasks, (place, ending) =>
      match tasks[place % tasks.length]? with
      | none => .done ()
      | some task =>
          match task.finish ending with
          | .ok _ => report (partAmount task)
          | .error _ =>
              notify
                (.abandon
                  ((tasks.eraseIdx (place % tasks.length)).map partAmount))
  | _, _ => .done ()

/-- A part of an upload, with the reports of its tasks. -/
def ofUpload {α : Type} : UploadGuard.Run α → Run α
  | .ready value => .done value
  | .panic => .fail .panic
  | .await asked next =>
      .call (.call (.upload asked)) fun reply =>
        announce asked reply >>= fun _ => ofUpload (next reply)
  | .acquire _ next => ofUpload next
  | .disarm next => ofUpload next
  | .release next => ofUpload next

/-- Stop with an error of the store, or go on. -/
def classified {α : Type} (outcome : Except ObjectStoreError α) : Run α :=
  ofExcept (outcome.mapError .error)

def multipartPutThreshold : Nat := 64 * 1024 * 1024

def putPath [Target] (bucket key path : Text) : Run Unit := do
  locally (← request (.openSource path))
  let bodyLen ← locally (← request .metadata)
  if multipartPutThreshold ≤ bodyLen then
    classified (← ofUpload
      (UploadGuard.multipartPutPath bucket key (UInt64.ofNat bodyLen) {}))
  else do
    locally (← request .buildStream)
    classified (← request (.putObject key))
    report bodyLen

/-! ## The agent -/

structure Agent where
  /-- The bucket of the store. -/
  bucket : Text
  bucketPrefix : Text
  /-- The directory for downloads, if its path is UTF-8. -/
  tmpDir : Option Text

namespace Agent

def key (agent : Agent) (oid : LfsOid) : Text :=
  join (some agent.bucketPrefix) (lit "lfs/" ++ oid.asStr)

/-- `Path::join` -/
def joinPath (directory name : Text) : Text :=
  if directory = [] ∨ directory.getLast? = some '/' then directory ++ name
  else directory ++ '/' :: name

/-- Why a transfer has failed. -/
inductive OpError where
  | panic
  | failed (message : Message)

def withCause : Stop → OpError
  | .panic => .panic
  | .error error => .failed (.display error)

def tryUpload [Target]
    (agent : Agent)
    (oid : LfsOid)
    (path : Text) : Op OpError Unit :=
  let upload : Run Unit := do
    match ← (store S3.head).attempt with
    | .ok _ => return ()
    | .error (.error (.notFound _)) =>
        putPath agent.bucket (agent.key oid) path
    | .error error => .fail error
  upload.mapError withCause

def tryDownload (agent : Agent) (oid : LfsOid) : Op OpError Text := do
  .call (.call .createDirAll) fun created =>
    ofExcept (created.mapError fun _ => .failed .io)
  (getToFile true).mapError withCause
  match agent.tmpDir with
  | some directory => return joinPath directory oid.asStr
  | none =>
      .fail (.failed (.text
        (lit "download destination is not valid UTF-8")))

end Agent

/-! ## Progress while a transfer is running -/

/-- What is known of a transfer. -/
structure Ledger where
  /-- The bytes that it has reported. -/
  reported : Nat := 0
  /-- The bytes that aborted tasks would have reported. -/
  abandoned : Nat := 0
  /-- The bytes that were reported before the download was tried again. -/
  before : Nat := 0
  /-- The size of the object that has been uploaded or downloaded. -/
  moved : Option Nat := none

/-- Book a call that was answered, or a notice. -/
def book (ledger : Ledger) :
    (entry : Noted Request Notice) → Noted.Reply Reply entry → Ledger
  | .call (.s3 (.persist content)), .ok _ =>
      { ledger with moved := some content.length }
  | .call .metadata, .ok length => { ledger with moved := some length }
  | .call _, _ => ledger
  | .notice (.report amount), _ =>
      { ledger with reported := ledger.reported + amount }
  | .notice (.abandon amounts), _ =>
      { ledger with abandoned := ledger.abandoned + amounts.sum }
  | .notice .retrying, _ => { ledger with before := ledger.reported }

/-- `u64::MAX` -/
def u64Max : Nat := 2 ^ 64 - 1

/-- A transfer while it is running. -/
structure Progress where
  time : Nat
  forward : Forward := {}
  /-- What aborted tasks may still report. -/
  straggling : List Nat := []
  /-- The bytes that aborted tasks have reported. -/
  straggled : Nat := 0
  ledger : Ledger := {}

/-- What happens between two steps of a transfer. -/
inductive Turn where
  /-- A report is taken from the channel and forwarded. -/
  | receive
  /-- An aborted task reports. -/
  | straggle (place : Nat)

/-- The lengths on the wire are those of an `i64`, and so are file sizes. -/
def Fits : (request : Request) → Reply request → Prop
  | .s3 .head, .ok output => ∀ length ∈ output.contentLength, length < 2 ^ 63
  | .s3 (.getObject _), .ok stream => stream.pieces.flatten.length < 2 ^ 63
  | .metadata, .ok length => length < 2 ^ 63
  | _, _ => True

/-- Every reply at its time, and what happens between the steps. -/
structure World where
  reply : Nat → (request : Request) → Reply request
  turns : Nat → List Turn
  fits : ∀ time request, Fits request (reply time request)

namespace Progress

def turn (progress : Progress) : Turn → Progress
  | .receive =>
      { progress with forward := progress.forward.receive u64Max }
  | .straggle place =>
      match progress.straggling[place]? with
      | none => progress
      | some amount =>
          { progress with
            forward := progress.forward.send amount
            straggling := progress.straggling.eraseIdx place
            straggled := progress.straggled + amount }

/-- What happens before the next step. -/
def turns (world : World) (progress : Progress) : Progress :=
  (world.turns progress.time).foldl turn progress

/-- A step of the transfer itself. -/
def step
    (progress : Progress)
    (entry : Noted Request Notice)
    (reply : Noted.Reply Reply entry) : Progress :=
  let next : Progress :=
    { progress with
      time := progress.time + 1
      ledger := book progress.ledger entry reply }
  match entry with
  | .call _ => next
  | .notice (.report amount) =>
      { next with forward := next.forward.send amount }
  | .notice (.abandon amounts) =>
      { next with straggling := next.straggling ++ amounts }
  | .notice .retrying => next

end Progress

def World.answer
    (world : World)
    (time : Nat) :
    (entry : Noted Request Notice) → Noted.Reply Reply entry
  | .call request => world.reply time request
  | .notice _ => ()

/-- Run a transfer, reports being forwarded meanwhile. -/
def drive {ε α : Type} (world : World) :
    Op ε α → Progress → Except ε α × Progress
  | .done value, progress => (.ok value, progress.turns world)
  | .fail error, progress => (.error error, progress.turns world)
  | .call entry next, progress =>
      drive world (next (world.answer progress.time entry))
        ((progress.turns world).step entry
          (world.answer progress.time entry))

/-- What is left in the channel when the transfer is over is forwarded too. -/
def withProgressStream {ε α : Type}
    (world : World)
    (time : Nat)
    (op : Op ε α) : Except ε α × Progress :=
  ((drive world op { time := time }).1,
    { (drive world op { time := time }).2 with
      forward := (drive world op { time := time }).2.forward.drain u64Max })

/-! ## Answers -/

/-- The answer to one transfer; without a last line the agent has panicked. -/
structure Answer where
  oid : Text
  progress : List (Nat × Nat)
  complete : Option (Option Text × Option ErrorPayload)
  ledger : Ledger := {}
  straggled : Nat := 0

def Answer.lines (answer : Answer) : List Line :=
  (answer.progress.map fun entry =>
      .progress answer.oid entry.1 entry.2) ++
    answer.complete.toList.map fun complete =>
      .complete answer.oid complete.1 complete.2

/-- The last line of a transfer, which may have a path to tell. -/
def completeOf :
    Except Agent.OpError (Option Text) →
      Option (Option Text × Option ErrorPayload)
  | .ok path => some (path, none)
  | .error .panic => none
  | .error (.failed message) => some (none, some ⟨errCodeGeneric, message⟩)

def transfer
    (world : World)
    (time : Nat)
    (oid : LfsOid)
    (op : Op Agent.OpError (Option Text)) : Answer × Nat :=
  let result := withProgressStream world time op
  ({ oid := oid.asStr
     progress := result.2.forward.entered
     complete := completeOf result.1
     ledger := result.2.ledger
     straggled := result.2.straggled },
    result.2.time)

def upload [Target]
    (agent : Agent)
    (world : World)
    (time : Nat)
    (oid : LfsOid)
    (path : Text) : Answer × Nat :=
  transfer world time oid (agent.tryUpload oid path >>= fun _ => .done none)

def download
    (agent : Agent)
    (world : World)
    (time : Nat)
    (oid : LfsOid) : Answer × Nat :=
  transfer world time oid
    (agent.tryDownload oid >>= fun destination => .done (some destination))

/-- The answer to a transfer of something that is no object id. -/
def rejected (text : Text) (error : LfsOidError) : Answer where
  oid := text
  progress := []
  complete :=
    some (none, some ⟨errCodeGeneric,
      .text (lit "invalid oid `" ++ text ++ lit "`: " ++ error.display)⟩)

/-! ## Sessions -/

/-- The answers to the events that follow the first. -/
def loop [Target] (agent : Agent) (world : World) :
    Nat → List Event → List Answer
  | _, [] => []
  | _, .terminate :: _ => []
  | time, .init _ :: rest => loop agent world time rest
  | time, .upload oid _ path :: rest =>
      match LfsOid.fromStr oid with
      | .error error => rejected oid error :: loop agent world time rest
      | .ok valid =>
          let (answer, later) := upload agent world time valid path
          answer ::
            if answer.complete.isSome then loop agent world later rest
            else []
  | time, .download oid _ :: rest =>
      match LfsOid.fromStr oid with
      | .error error => rejected oid error :: loop agent world time rest
      | .ok valid =>
          let (answer, later) := download agent world time valid
          answer ::
            if answer.complete.isSome then loop agent world later rest
            else []

/-- Why the agent exits with an error. -/
inductive RunError where
  | stdinClosed
  | initNotFirst (event : Event)

/-- Resolve the remote; a failure is told with the text of its cause. -/
def initAgent
    (resolve : Text → Except Text Agent)
    (remote : Text) : Except Text Agent :=
  if remote = [] then .error (lit "init.remote is empty")
  else
    (resolve remote).mapError fun source =>
      lit "cannot resolve remote \"" ++ remote ++ lit "\": " ++ source

/-- All lines the agent writes in a session. -/
def run [Target]
    (resolve : Text → Except Text Agent)
    (world : World) : List Event → Except RunError (List Line)
  | [] => .error .stdinClosed
  | .terminate :: _ => .ok []
  | .init remote :: rest =>
      match initAgent resolve remote with
      | .error message => .ok [.ack (some ⟨errCodeInit, .text message⟩)]
      | .ok agent =>
          .ok (.ack none ::
            (loop agent world 0 rest).flatMap Answer.lines)
  | event :: _ => .error (.initNotFirst event)

end GitRemoteObjectStore.Lfs
