import GitRemoteObjectStore.Engines
import GitRemoteObjectStore.Library.LastRun
import GitRemoteObjectStore.Library.Outcomes
import GitRemoteObjectStore.Library.Separated
import GitRemoteObjectStore.Lock

/-!
# The remote-helper loop

Git talks to the helper line by line.  `fetch` and `push` lines accumulate
until a blank line dispatches them as one batch; everything else is answered
at once.  The handlers of the commands are requests of the loop, answered in
any way at all.
-/

namespace GitRemoteObjectStore.Repl

open CallProgram Prog Separated LastRun

/-! ## Lines -/

/-- Single-line command parsed from stdin. -/
inductive Command where
  | capabilities
  | bundleUri
  | list (forPush : Bool)
  | option (args : Text)
  | fetch (args : Text)
  | push (args : Text)
  | empty
deriving DecidableEq

/-- `str::trim_end_matches` with the ends of a line -/
def trimLineEnd (line : Text) : Text :=
  (line.reverse.dropWhile fun character =>
    character == '\r' || character == '\n').reverse

def parseCommand (line : Text) : Option Command :=
  let trimmed := trimLineEnd line
  if trimmed = [] then some .empty
  else if trimmed = lit "capabilities" then some .capabilities
  else if trimmed = lit "bundle-uri" then some .bundleUri
  -- `list for-push` must match before `list`.
  else if trimmed = lit "list for-push" then some (.list true)
  else if trimmed = lit "list" then some (.list false)
  else
    match stripPrefix (lit "option ") trimmed with
    | some rest => some (.option rest)
    | none =>
        match stripPrefix (lit "fetch ") trimmed with
        | some rest => some (.fetch rest)
        | none =>
            (stripPrefix (lit "push ") trimmed).map Command.push

/-! ## Options -/

/-- A `NonZeroU32` -/
structure Depth where
  value : Nat
  positive : 0 < value
  bounded : value < 2 ^ 32
deriving DecidableEq

/-- The value of a run of decimal digits. -/
def decimal (digits : Text) : Option Nat :=
  if digits = [] then none
  else
    digits.foldlM
      (fun value digit =>
        if digit.isDigit then
          some (10 * value + (digit.toNat - '0'.toNat))
        else none)
      0

/-- `str::parse::<NonZeroU32>` -/
def parseDepth (text : Text) : Option Depth :=
  match decimal ((stripPrefix ['+'] text).getD text) with
  | none => none
  | some value =>
      if holds : 0 < value ∧ value < 2 ^ 32 then
        some ⟨value, holds.1, holds.2⟩
      else none

/-- `str::parse::<i32>` -/
def parseI32 (text : Text) : Option Int :=
  match stripPrefix ['-'] text with
  | some digits =>
      match decimal digits with
      | none => none
      | some value => if value ≤ 2 ^ 31 then some (-value) else none
  | none =>
      match decimal ((stripPrefix ['+'] text).getD text) with
      | none => none
      | some value => if value < 2 ^ 31 then some value else none

inductive OptionRequest where
  | verbosity (level : Int)
  | depth (depth : Depth)
deriving DecidableEq

/-- `str::split_whitespace` -/
def splitWhitespace (text : Text) : List Text :=
  (text.splitOnP isWhitespace).filter fun part => part ≠ []

def parseOption (args : Text) : Option OptionRequest :=
  match splitWhitespace args with
  | [key, value] =>
      if key = lit "verbosity" then
        (parseI32 value).map OptionRequest.verbosity
      else if key = lit "depth" then
        (parseDepth value).map OptionRequest.depth
      else none
  | _ => none

/-! ## Batches -/

/-- Which batched command stream is being collected. -/
inductive Mode where
  | fetch
  | push
deriving DecidableEq

/-- The commands collected until a blank line. -/
structure BatchState where
  mode : Option Mode
  fetchCmds : List Text
  pushCmds : List Text
deriving DecidableEq

namespace BatchState

def new : BatchState :=
  ⟨none, [], []⟩

/-- Record one command; a switch of mode discards the other's commands. -/
def accumulate
    (batch : BatchState)
    (incoming : Mode)
    (cmd : Text) : BatchState :=
  let switched :=
    if batch.mode ≠ some incoming then
      match incoming with
      | .fetch => { batch with pushCmds := [], mode := some incoming }
      | .push => { batch with fetchCmds := [], mode := some incoming }
    else batch
  match incoming with
  | .fetch => { switched with fetchCmds := switched.fetchCmds ++ [cmd] }
  | .push => { switched with pushCmds := switched.pushCmds ++ [cmd] }

/-- The pending batch, if any, and what is left without it. -/
def takePending
    (batch : BatchState) : Option (Mode × List Text) × BatchState :=
  match batch.mode with
  | some .fetch =>
      if batch.fetchCmds ≠ [] then
        (some (.fetch, batch.fetchCmds),
          { batch with mode := none, fetchCmds := [] })
      else (none, batch)
  | some .push =>
      if batch.pushCmds ≠ [] then
        (some (.push, batch.pushCmds),
          { batch with mode := none, pushCmds := [] })
      else (none, batch)
  | none => (none, batch)

end BatchState

/-! ## The loop -/

/-- Errors of the loop. -/
inductive ProtocolError where
  | io
  | list
  | fetch
  | push
  | invalidCommand (line : Text)
  | bundleUri
deriving DecidableEq

/-- What the loop asks for. -/
inductive Call where
  | write (bytes : Text)
  | flush
  | raiseToInfo
  | handleBundleUri (advertised : Bool)
  | handleList (engine : StorageEngine) (forPush : Bool)
  | fetchBatch
      (engine : StorageEngine) (cmds : List Text) (depth : Option Depth)
  | pushBatch (engine : StorageEngine) (cmds : List Text)
deriving DecidableEq

/-- Whether a call hands a batch to its handler. -/
def Call.isBatch : Call → Bool
  | .fetchBatch _ _ _ => true
  | .pushBatch _ _ => true
  | _ => false

/-- Whether a call hands a fetch batch to its handler. -/
def Call.isFetchBatch : Call → Bool
  | .fetchBatch _ _ _ => true
  | _ => false

variable [Platform]

/-- The line a push outcome is reported with. -/
def toProtocolLine : PushOutcome → Text
  | .ok remoteRef => lit "ok " ++ remoteRef.text ++ ['\n']
  | .error remoteRef message =>
      lit "error " ++ remoteRef.text ++ [' '] ++ message.toList ++ ['\n']

/-- What a call is answered with; `none` where it has failed. -/
abbrev Reply : Call → Type
  | .pushBatch _ _ => Option (List PushOutcome)
  | _ => Option Unit

abbrev Run (α : Type) : Type :=
  Prog Call Reply ProtocolError α

/-- What a session is opened with. -/
structure Helper where
  engine : StorageEngine
  advertiseBundleUri : Bool
  hasReload : Bool
deriving DecidableEq

/-- What the loop carries from line to line. -/
structure Session where
  batch : BatchState
  depth : Option Depth
deriving DecidableEq

def Session.new : Session :=
  ⟨.new, none⟩

/-- The answer of a call, or an error in its place. -/
def answered
    {α : Type}
    (error : ProtocolError) : Option α → Run α
  | some value => .done value
  | none => .fail error

def writeAll (bytes : Text) : Run Unit :=
  .call (.write bytes) (answered .io)

def flushWriter : Run Unit :=
  .call .flush (answered .io)

def handleCapabilities (advertiseBundleUri : Bool) : Run Unit := do
  writeAll (lit "*push\n*fetch\noption\n")
  if advertiseBundleUri then writeAll (lit "bundle-uri\n")
  writeAll ['\n']
  flushWriter

/-- Respond to an option; the depth to remember, if it was one. -/
def handleOption (helper : Helper) (args : Text) : Run (Option Depth) := do
  match parseOption args with
  | some (.verbosity level) =>
      if 2 ≤ level then do
        -- A verbosity that cannot be raised is still answered.
        if helper.hasReload then .call .raiseToInfo fun _ => .done ()
        writeAll (lit "ok\n")
        flushWriter
        return none
      else do
        writeAll (lit "unsupported\n")
        flushWriter
        return none
  | some (.depth depth) => do
      writeAll (lit "ok\n")
      flushWriter
      return some depth
  | none => do
      writeAll (lit "unsupported\n")
      flushWriter
      return none

def writePushOutcomes (outcomes : List PushOutcome) : Run Unit :=
  forEach (fun outcome => writeAll (toProtocolLine outcome)) outcomes

/-- Dispatch a batch; what is left of the depth. -/
def dispatch
    (helper : Helper)
    (depth : Option Depth) : Option (Mode × List Text) → Run (Option Depth)
  | none => .done depth
  | some (.fetch, cmds) => do
      let _ ←
        Prog.call (.fetchBatch helper.engine cmds depth) (answered .fetch)
      return none
  | some (.push, cmds) => do
      let outcomes ←
        Prog.call (.pushBatch helper.engine cmds) (answered .push)
      writePushOutcomes outcomes
      return depth

/-- Dispatch the pending batch, if any, and acknowledge. -/
def flushBatch (helper : Helper) (session : Session) : Run Session := do
  let depth ← dispatch helper session.depth session.batch.takePending.1
  writeAll ['\n']
  flushWriter
  return ⟨session.batch.takePending.2, depth⟩

def handleCommand
    (helper : Helper)
    (session : Session) : Command → Run Session
  | .capabilities => do
      handleCapabilities helper.advertiseBundleUri
      return session
  | .bundleUri => do
      let _ ←
        Prog.call (.handleBundleUri helper.advertiseBundleUri)
          (answered .bundleUri)
      return session
  | .list forPush => do
      let _ ←
        Prog.call (.handleList helper.engine forPush) (answered .list)
      return session
  | .option args => do
      let effect ← handleOption helper args
      return { session with depth := effect.orElse fun _ => session.depth }
  | .fetch args =>
      return { session with batch := session.batch.accumulate .fetch args }
  | .push args =>
      return { session with batch := session.batch.accumulate .push args }
  | .empty => flushBatch helper session

/-- One turn of the loop. -/
def processLine
    (helper : Helper)
    (session : Session)
    (line : Text) : Run Session :=
  match parseCommand line with
  | none => .fail (.invalidCommand line)
  | some cmd => handleCommand helper session cmd

/-- The loop over the lines of stdin. -/
def run (helper : Helper) (lines : List Text) : Run Session :=
  foldEach (processLine helper) .new lines

end GitRemoteObjectStore.Repl
