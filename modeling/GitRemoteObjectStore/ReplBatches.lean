import GitRemoteObjectStore.Repl

/-!
# The batches of a session

A blank line dispatches the last run of commands of one mode received since
the batch before it, and a fetch batch takes with it the last depth received
since the fetch batch before it.  Both are read off the history of the
session: its lines so far, and what was asked for at each.
-/

namespace GitRemoteObjectStore.Repl

open CallProgram Prog LastRun

/-! ## Histories -/

/-- A line, what was asked for at it, and what the loop carries on from it. -/
structure Entry where
  line : Text
  calls : List Call
  session : Session

namespace Entry

def dispatches (entry : Entry) : Bool :=
  entry.calls.any Call.isBatch

def dispatchesFetch (entry : Entry) : Bool :=
  entry.calls.any Call.isFetchBatch

end Entry

/-- The command a line adds to a batch. -/
def batchCommand (line : Text) : Option (Mode × Text) :=
  match parseCommand line with
  | some (.fetch args) => some (.fetch, args)
  | some (.push args) => some (.push, args)
  | _ => none

/-- The depth an option asks for. -/
def requestedDepth (args : Text) : Option Depth :=
  match parseOption args with
  | some (.depth depth) => some depth
  | _ => none

/-- The depth a line asks for. -/
def depthOption (line : Text) : Option Depth :=
  match parseCommand line with
  | some (.option args) => requestedDepth args
  | _ => none

/--
The last run of commands of one mode received since the last dispatched
batch.
-/
def pendingBatch (history : List Entry) : List (Mode × Text) :=
  lastRun
    ((history.rtakeWhile fun entry => !entry.dispatches).filterMap
      fun entry => batchCommand entry.line)

/-- The last depth received since the last dispatched fetch batch. -/
def pendingDepth (history : List Entry) : Option Depth :=
  ((history.rtakeWhile fun entry => !entry.dispatchesFetch).filterMap
    fun entry => depthOption entry.line).getLast?

/-- An entry that dispatches nothing adds its command to the pending run. -/
theorem pendingBatch_concat_quiet
    {history : List Entry}
    {entry : Entry}
    (quiet : entry.dispatches = false) :
    pendingBatch (history ++ [entry]) =
      match batchCommand entry.line with
      | none => pendingBatch history
      | some command => extend (pendingBatch history) command := by
  unfold pendingBatch
  rw [List.rtakeWhile_concat, if_pos (by simp [quiet]),
    List.filterMap_append]
  cases found : batchCommand entry.line with
  | none => simp [found]
  | some command =>
      simp only [List.filterMap_cons, found, List.filterMap_nil]
      exact lastRun_concat _ _

theorem pendingBatch_concat_dispatches
    {history : List Entry}
    {entry : Entry}
    (dispatches : entry.dispatches = true) :
    pendingBatch (history ++ [entry]) = [] := by
  unfold pendingBatch
  rw [List.rtakeWhile_concat, if_neg (by simp [dispatches])]
  rfl

theorem pendingDepth_concat_quiet
    {history : List Entry}
    {entry : Entry}
    (quiet : entry.dispatchesFetch = false) :
    pendingDepth (history ++ [entry]) =
      (depthOption entry.line).orElse fun _ => pendingDepth history := by
  unfold pendingDepth
  rw [List.rtakeWhile_concat, if_pos (by simp [quiet]),
    List.filterMap_append]
  cases found : depthOption entry.line with
  | none => simp [found]
  | some depth => simp [found]

theorem pendingDepth_concat_dispatches
    {history : List Entry}
    {entry : Entry}
    (dispatches : entry.dispatchesFetch = true) :
    pendingDepth (history ++ [entry]) = none := by
  unfold pendingDepth
  rw [List.rtakeWhile_concat, if_neg (by simp [dispatches])]
  rfl

/-- A fetch batch is a batch. -/
theorem Call.isBatch_of_isFetchBatch
    {call : Call}
    (fetches : call.isFetchBatch = true) :
    call.isBatch = true := by
  cases call with
  | fetchBatch engine cmds depth => rfl
  | _ => cases fetches

/-- An entry without a batch dispatches nothing. -/
theorem Entry.dispatches_eq_false
    {entry : Entry}
    (quiet : ∀ call ∈ entry.calls, call.isBatch = false) :
    entry.dispatches = false ∧ entry.dispatchesFetch = false := by
  constructor
  · exact List.any_eq_false.2 fun call member => by simp [quiet call member]
  · refine List.any_eq_false.2 fun call member fetches => ?_
    have batch := Call.isBatch_of_isFetchBatch fetches
    rw [quiet call member] at batch
    cases batch

/-! ## The accumulators -/

/-- The state in which a run of commands is pending. -/
def BatchState.holding : List (Mode × Text) → BatchState
  | [] => .new
  | (.fetch, cmd) :: rest => ⟨some .fetch, cmd :: rest.map Prod.snd, []⟩
  | (.push, cmd) :: rest => ⟨some .push, [], cmd :: rest.map Prod.snd⟩

theorem BatchState.holding_apart (pending : List (Mode × Text)) :
    (holding pending).fetchCmds = [] ∨ (holding pending).pushCmds = [] := by
  rcases pending with _ | ⟨⟨mode, cmd⟩, rest⟩
  · exact Or.inl rfl
  · cases mode with
    | fetch => exact Or.inr rfl
    | push => exact Or.inl rfl

/-- A command continues the pending run, or discards it for its own. -/
theorem BatchState.accumulate_holding
    {pending : List (Mode × Text)}
    (single :
      ∀ first ∈ pending, ∀ second ∈ pending, first.1 = second.1)
    (mode : Mode)
    (cmd : Text) :
    (holding pending).accumulate mode cmd =
      holding (extend pending (mode, cmd)) := by
  rcases pending with _ | ⟨⟨present, first⟩, rest⟩
  · cases mode <;> rfl
  · by_cases same : present = mode
    · subst same
      have all :
          ((present, first) :: rest).all
            (fun other => other.1 == (present, cmd).1) = true := by
        rw [List.all_eq_true]
        intro other member
        exact beq_iff_eq.2
          (single other member (present, first) List.mem_cons_self)
      rw [extend, if_pos all]
      cases present with
      | fetch => simp [holding, accumulate]
      | push => simp [holding, accumulate]
    · have notAll :
          ((present, first) :: rest).all
            (fun other => other.1 == (mode, cmd).1) = false := by
        simp [same]
      rw [extend, notAll, if_neg Bool.false_ne_true]
      cases present with
      | fetch =>
          cases mode with
          | fetch => exact absurd rfl same
          | push => rfl
      | push =>
          cases mode with
          | fetch => rfl
          | push => exact absurd rfl same

/-- A run of commands as the batch that is dispatched. -/
def asBatch : List (Mode × Text) → Option (Mode × List Text)
  | [] => none
  | (mode, cmd) :: rest => some (mode, cmd :: rest.map Prod.snd)

/-- Taking the pending run leaves nothing. -/
theorem BatchState.takePending_holding (pending : List (Mode × Text)) :
    (holding pending).takePending = (asBatch pending, .new) := by
  rcases pending with _ | ⟨⟨mode, cmd⟩, rest⟩
  · rfl
  · cases mode <;> rfl

section Turns

variable [Platform]

/-! ## The calls at a line -/

/-- The calls a batch is dispatched with, given what pushes report. -/
def dispatchCalls
    (engine : StorageEngine)
    (depth : Option Depth)
    (outcomes : List PushOutcome) : List (Mode × Text) → List Call
  | [] => []
  | (.fetch, cmd) :: rest =>
      [.fetchBatch engine (cmd :: rest.map Prod.snd) depth]
  | (.push, cmd) :: rest =>
      .pushBatch engine (cmd :: rest.map Prod.snd) ::
        outcomes.map fun outcome => .write (toProtocolLine outcome)

theorem succeeds_answered
    {α : Type}
    {error : ProtocolError}
    {answer : Option α}
    {calls : List Call}
    {value : α}
    (path : Succeeds (answered error answer) calls value) :
    calls = [] := by
  cases answer with
  | none => exact path.elim
  | some found => exact path.1

theorem succeeds_writeAll
    {bytes : Text}
    {calls : List Call}
    {value : Unit}
    (path : Succeeds (writeAll bytes) calls value) :
    calls = [.write bytes] := by
  rcases path with ⟨reply, rest, rfl, path⟩
  rw [succeeds_answered path]

theorem succeeds_flushWriter
    {calls : List Call}
    {value : Unit}
    (path : Succeeds flushWriter calls value) :
    calls = [.flush] := by
  rcases path with ⟨reply, rest, rfl, path⟩
  rw [succeeds_answered path]

theorem succeeds_writePushOutcomes
    {outcomes : List PushOutcome}
    {calls : List Call}
    {value : Unit}
    (path : Succeeds (writePushOutcomes outcomes) calls value) :
    calls = outcomes.map fun outcome => .write (toProtocolLine outcome) := by
  induction outcomes generalizing calls with
  | nil => exact path.1
  | cons outcome rest hypothesis =>
      unfold writePushOutcomes at path
      rw [forEach_cons] at path
      rcases succeeds_bind.1 path with
        ⟨first, second, _, rfl, written, others⟩
      rw [succeeds_writeAll written, hypothesis others]
      rfl

/-- The depth left by the dispatch of a run of commands. -/
def depthAfter (depth : Option Depth) : List (Mode × Text) → Option Depth
  | (.fetch, _) :: _ => none
  | _ => depth

theorem succeeds_dispatch
    {helper : Helper}
    {depth left : Option Depth}
    {pending : List (Mode × Text)}
    {calls : List Call}
    (path : Succeeds (dispatch helper depth (asBatch pending)) calls left) :
    (∃ outcomes,
      calls = dispatchCalls helper.engine depth outcomes pending) ∧
      left = depthAfter depth pending := by
  rcases pending with _ | ⟨⟨mode, cmd⟩, rest⟩
  · exact ⟨⟨[], path.1⟩, path.2⟩
  · cases mode with
    | fetch =>
        rcases succeeds_bind.1 path with
          ⟨first, second, _, rfl, ⟨reply, later, rfl, asked⟩, ⟨rfl, rfl⟩⟩
        rw [succeeds_answered asked]
        exact ⟨⟨[], rfl⟩, rfl⟩
    | push =>
        rcases succeeds_bind.1 path with
          ⟨first, second, outcomes, rfl, ⟨reply, later, rfl, asked⟩, ended⟩
        rcases succeeds_bind.1 ended with
          ⟨lines, last, _, rfl, written, ⟨rfl, rfl⟩⟩
        rw [succeeds_answered asked, succeeds_writePushOutcomes written]
        exact ⟨⟨outcomes, by simp [dispatchCalls]⟩, rfl⟩

/-- A flush dispatches the pending run and acknowledges it. -/
theorem succeeds_flushBatch
    {helper : Helper}
    {depth : Option Depth}
    {pending : List (Mode × Text)}
    {calls : List Call}
    {next : Session}
    (path :
      Succeeds (flushBatch helper ⟨.holding pending, depth⟩) calls next) :
    (∃ outcomes,
      calls =
        dispatchCalls helper.engine depth outcomes pending ++
          [.write ['\n'], .flush]) ∧
      next = ⟨.new, depthAfter depth pending⟩ := by
  unfold flushBatch at path
  simp only [BatchState.takePending_holding] at path
  rcases succeeds_bind.1 path with
    ⟨first, second, left, rfl, dispatched, path⟩
  rcases succeeds_bind.1 path with ⟨line, later, _, rfl, written, path⟩
  rcases succeeds_bind.1 path with
    ⟨flushed, last, _, rfl, done, ⟨rfl, rfl⟩⟩
  rcases succeeds_dispatch dispatched with ⟨⟨outcomes, rfl⟩, rfl⟩
  rw [succeeds_writeAll written, succeeds_flushWriter done]
  exact ⟨⟨outcomes, rfl⟩, rfl⟩

/-- A line is written and flushed, and then the effect is known. -/
theorem succeeds_respond
    {bytes : Text}
    {calls : List Call}
    {effect found : Option Depth}
    (path :
      Succeeds
        (writeAll bytes >>= fun _ => flushWriter >>= fun _ =>
          (pure effect : Run (Option Depth)))
        calls found) :
    found = effect := by
  rcases succeeds_bind.1 path with ⟨_, _, _, _, _, path⟩
  rcases succeeds_bind.1 path with ⟨_, _, _, _, _, path⟩
  exact path.2

theorem succeeds_handleOption
    {helper : Helper}
    {args : Text}
    {calls : List Call}
    {effect : Option Depth}
    (path : Succeeds (handleOption helper args) calls effect) :
    effect = requestedDepth args := by
  unfold handleOption at path
  unfold requestedDepth
  cases parsed : parseOption args with
  | none =>
      simp only [parsed] at path
      exact succeeds_respond path
  | some request =>
      cases request with
      | verbosity level =>
          simp only [parsed] at path
          split at path
          · split at path
            · rcases succeeds_bind.1 path with ⟨_, _, _, _, _, responded⟩
              exact succeeds_respond responded
            · exact succeeds_respond path
          · exact succeeds_respond path
      | depth depth =>
          simp only [parsed] at path
          exact succeeds_respond path

/-- What is written and flushed is no batch. -/
theorem issues_answered
    {α : Type}
    {allowed : Call → Prop}
    {error : ProtocolError}
    (answer : Option α) :
    Issues (fun _ _ => True) allowed (answered error answer) := by
  cases answer <;> trivial

theorem issues_writeAll (bytes : Text) :
    Issues (fun _ _ => True) (fun call => call.isBatch = false)
      (writeAll bytes) :=
  ⟨rfl, fun answer _ => issues_answered answer⟩

theorem issues_flushWriter :
    Issues (fun _ _ => True) (fun call => call.isBatch = false)
      flushWriter :=
  ⟨rfl, fun answer _ => issues_answered answer⟩

theorem issues_handleOption (helper : Helper) (args : Text) :
    Issues (fun _ _ => True) (fun call => call.isBatch = false)
      (handleOption helper args) := by
  have responds (bytes : Text) (effect : Option Depth) :
      Issues (fun _ _ => True) (fun call => call.isBatch = false)
        (writeAll bytes >>= fun _ => flushWriter >>= fun _ =>
          (pure effect : Run (Option Depth))) :=
    (issues_writeAll bytes).bind fun _ =>
      issues_flushWriter.bind fun _ => trivial
  unfold handleOption
  split
  · split
    · cases helper.hasReload with
      | false => exact responds _ _
      | true =>
          exact
            Issues.bind ⟨rfl, fun _ _ => trivial⟩ fun _ => responds _ _
    · exact responds _ _
  · exact responds _ _
  · exact responds _ _

/-- No command but the blank line dispatches anything. -/
theorem issues_handleCommand
    (helper : Helper)
    (session : Session)
    {cmd : Command}
    (busy : cmd ≠ .empty) :
    Issues (fun _ _ => True) (fun call => call.isBatch = false)
      (handleCommand helper session cmd) := by
  cases cmd with
  | capabilities =>
      refine Issues.bind ?_ fun _ => trivial
      refine (issues_writeAll _).bind fun _ => ?_
      have ends :
          Issues (fun _ _ => True) (fun call => call.isBatch = false)
            (writeAll ['\n'] >>= fun _ => flushWriter) :=
        (issues_writeAll _).bind fun _ => issues_flushWriter
      cases helper.advertiseBundleUri with
      | false => exact ends
      | true => exact (issues_writeAll _).bind fun _ => ends
  | bundleUri =>
      exact
        Issues.bind ⟨rfl, fun answer _ => issues_answered answer⟩
          fun _ => trivial
  | list forPush =>
      exact
        Issues.bind ⟨rfl, fun answer _ => issues_answered answer⟩
          fun _ => trivial
  | option args =>
      exact (issues_handleOption helper args).bind fun _ => trivial
  | fetch args => trivial
  | push args => trivial
  | empty => exact absurd rfl busy

/-! ## Step by step -/

/-- The entries of a session, up to the line that ends it with an error. -/
def transcript
    {σ : Type}
    (handler : Handler Call Reply σ)
    (helper : Helper) : Session → List Text → σ → List Entry
  | _, [], _ => []
  | session, line :: rest, state =>
      match Prog.run handler (processLine helper session line) state with
      | (.ok next, after) =>
          ⟨line, issued handler (processLine helper session line) state,
              next⟩ ::
            transcript handler helper next rest after
      | (.error _, _) => []

/-- What the loop does at a line, given the history before it. -/
structure Entry.Follows
    (engine : StorageEngine)
    (history : List Entry)
    (entry : Entry) : Prop where
  /-- A blank line dispatches what is pending and is acknowledged. -/
  flushed :
    parseCommand entry.line = some .empty →
      ∃ outcomes,
        entry.calls =
          dispatchCalls engine (pendingDepth history) outcomes
              (pendingBatch history) ++
            [.write ['\n'], .flush]
  /-- No other line dispatches anything. -/
  quiet :
    parseCommand entry.line ≠ some .empty →
      ∀ call ∈ entry.calls, call.isBatch = false
  /-- One of the accumulators is empty. -/
  apart :
    entry.session.batch.fetchCmds = [] ∨
      entry.session.batch.pushCmds = []

/-- The loop carries what the history leaves pending. -/
structure Session.After
    (history : List Entry)
    (session : Session) : Prop where
  batch : session.batch = .holding (pendingBatch history)
  depth : session.depth = pendingDepth history

omit [Platform] in
/-- An entry without a batch adds its command and its depth. -/
theorem Session.After.quiet
    {history : List Entry}
    {session next : Session}
    (held : session.After history)
    {entry : Entry}
    (silent : ∀ call ∈ entry.calls, call.isBatch = false)
    (batch :
      next.batch =
        match batchCommand entry.line with
        | none => session.batch
        | some command =>
            session.batch.accumulate command.1 command.2)
    (depth :
      next.depth =
        (depthOption entry.line).orElse fun _ => session.depth) :
    next.After (history ++ [entry]) := by
  have none := Entry.dispatches_eq_false silent
  constructor
  · rw [batch, pendingBatch_concat_quiet none.1, held.batch]
    cases batchCommand entry.line with
    | none => rfl
    | some command =>
        exact
          BatchState.accumulate_holding
            (fun _ first _ second => lastRun_same_key first second)
            command.1 command.2
  · rw [depth, pendingDepth_concat_quiet none.2, held.depth]

/-- What a command other than the blank line leaves of the session. -/
theorem succeeds_handleCommand
    {helper : Helper}
    {session next : Session}
    {line : Text}
    {cmd : Command}
    (parsed : parseCommand line = some cmd)
    (busy : cmd ≠ .empty)
    {calls : List Call}
    (path : Succeeds (handleCommand helper session cmd) calls next) :
    (next.batch =
        match batchCommand line with
        | none => session.batch
        | some command =>
            session.batch.accumulate command.1 command.2) ∧
      next.depth =
        (depthOption line).orElse fun _ => session.depth := by
  unfold batchCommand depthOption
  cases cmd with
  | capabilities =>
      rcases succeeds_bind.1 path with ⟨_, _, _, _, _, ⟨_, rfl⟩⟩
      simp only [parsed, Option.orElse_none, and_self]
  | bundleUri =>
      rcases succeeds_bind.1 path with ⟨_, _, _, _, _, ⟨_, rfl⟩⟩
      simp only [parsed, Option.orElse_none, and_self]
  | list forPush =>
      rcases succeeds_bind.1 path with ⟨_, _, _, _, _, ⟨_, rfl⟩⟩
      simp only [parsed, Option.orElse_none, and_self]
  | option args =>
      rcases succeeds_bind.1 path with
        ⟨_, _, effect, _, handled, ⟨_, rfl⟩⟩
      rw [succeeds_handleOption handled]
      simp only [parsed, and_self]
  | fetch args =>
      rcases path with ⟨_, rfl⟩
      simp only [parsed, Option.orElse_none, and_self]
  | push args =>
      rcases path with ⟨_, rfl⟩
      simp only [parsed, Option.orElse_none, and_self]
  | empty => exact absurd rfl busy

/-- What a blank line leaves pending. -/
theorem Session.After.flushed
    {engine : StorageEngine}
    {history : List Entry}
    {line : Text}
    (parsed : parseCommand line = some .empty)
    {outcomes : List PushOutcome} :
    Session.After
      (history ++
        [⟨line,
            dispatchCalls engine (pendingDepth history) outcomes
                (pendingBatch history) ++
              [.write ['\n'], .flush],
            ⟨.new, depthAfter (pendingDepth history)
              (pendingBatch history)⟩⟩])
      ⟨.new, depthAfter (pendingDepth history)
        (pendingBatch history)⟩ := by
  have noCommand : batchCommand line = none := by
    simp only [batchCommand, parsed]
  have noDepth : depthOption line = none := by
    simp only [depthOption, parsed]
  generalize pending : pendingBatch history = run
  rcases run with _ | ⟨⟨mode, cmd⟩, rest⟩
  · constructor
    · rw [pendingBatch_concat_quiet rfl]
      simp only [noCommand, pending]
      rfl
    · rw [pendingDepth_concat_quiet rfl]
      simp only [noDepth]
      rfl
  · cases mode with
    | fetch =>
        constructor
        · rw [pendingBatch_concat_dispatches rfl]
          rfl
        · rw [pendingDepth_concat_dispatches rfl]
          rfl
    | push =>
        constructor
        · rw [pendingBatch_concat_dispatches rfl]
          rfl
        · rw [pendingDepth_concat_quiet]
          · simp only [noDepth]
            rfl
          · simp [Entry.dispatchesFetch, dispatchCalls, Call.isFetchBatch]

/-- A turn of the loop does what the history asks for. -/
theorem turn
    {helper : Helper}
    {history : List Entry}
    {session next : Session}
    (held : session.After history)
    {line : Text}
    {calls : List Call}
    (path : Succeeds (processLine helper session line) calls next) :
    Entry.Follows helper.engine history ⟨line, calls, next⟩ ∧
      next.After (history ++ [⟨line, calls, next⟩]) := by
  have apart (after : next.After (history ++ [⟨line, calls, next⟩])) :
      next.batch.fetchCmds = [] ∨ next.batch.pushCmds = [] := by
    rw [after.batch]
    exact BatchState.holding_apart _
  unfold processLine at path
  cases parsed : parseCommand line with
  | none =>
      rw [parsed] at path
      exact path.elim
  | some cmd =>
      rw [parsed] at path
      by_cases blank : cmd = .empty
      · subst blank
        rcases session with ⟨batch, depth⟩
        obtain rfl : batch = .holding (pendingBatch history) := held.batch
        obtain rfl : depth = pendingDepth history := held.depth
        rcases succeeds_flushBatch path with ⟨⟨outcomes, rfl⟩, rfl⟩
        have after :
            Session.After
              (history ++
                [⟨line,
                    dispatchCalls helper.engine (pendingDepth history)
                        outcomes (pendingBatch history) ++
                      [.write ['\n'], .flush],
                    ⟨.new, depthAfter (pendingDepth history)
                      (pendingBatch history)⟩⟩])
              ⟨.new, depthAfter (pendingDepth history)
                (pendingBatch history)⟩ :=
          Session.After.flushed parsed
        exact
          ⟨⟨fun _ => ⟨outcomes, rfl⟩, fun busy => absurd parsed busy,
            apart after⟩, after⟩
      · have silent := (issues_handleCommand helper session blank).succeeds path
        have left := succeeds_handleCommand parsed blank path
        have after :
            next.After (history ++ [⟨line, calls, next⟩]) :=
          held.quiet silent left.1 left.2
        refine ⟨⟨fun empty => ?_, fun _ => silent, apart after⟩, after⟩
        rw [parsed] at empty
        exact absurd (Option.some.inj empty) blank

/-! ## Whole sessions -/

section Sessions

variable
    {σ : Type}
    {handler : Handler Call Reply σ}
    {helper : Helper}

/-- Every entry of a transcript follows from the history before it. -/
theorem transcript_follows
    {history : List Entry}
    {session : Session}
    (held : session.After history)
    {lines : List Text}
    {state : σ}
    {earlier later : List Entry}
    {entry : Entry}
    (split :
      transcript handler helper session lines state =
        earlier ++ entry :: later) :
    entry.Follows helper.engine (history ++ earlier) := by
  induction lines generalizing history session state earlier with
  | nil => simp [transcript] at split
  | cons line rest hypothesis =>
      unfold transcript at split
      cases ran :
          Prog.run handler (processLine helper session line) state with
      | mk outcome after =>
          rw [ran] at split
          cases outcome with
          | error error => simp at split
          | ok next =>
              have turned := turn held (Succeeds.of_run ran)
              cases earlier with
              | nil =>
                  obtain ⟨rfl, -⟩ := List.cons.inj split
                  rw [List.append_nil]
                  exact turned.1
              | cons first middle =>
                  obtain ⟨rfl, others⟩ := List.cons.inj split
                  rw [List.append_cons]
                  exact hypothesis turned.2 others

/-- A session without error is its transcript, line by line. -/
theorem transcript_complete
    {session last : Session}
    {lines : List Text}
    {state ended : σ}
    (ran :
      Prog.run handler (foldEach (processLine helper) session lines) state =
        (.ok last, ended)) :
    (transcript handler helper session lines state).map Entry.line =
        lines ∧
      (transcript handler helper session lines state).flatMap
          Entry.calls =
        issued handler (foldEach (processLine helper) session lines)
          state := by
  induction lines generalizing session state with
  | nil => exact ⟨rfl, rfl⟩
  | cons line rest hypothesis =>
      rw [foldEach_cons] at ran
      rw [foldEach_cons]
      unfold transcript
      cases first :
          Prog.run handler (processLine helper session line) state with
      | mk outcome after =>
          cases outcome with
          | error error =>
              rw [run_bind_error first] at ran
              cases ran
          | ok next =>
              rw [run_bind_ok first] at ran
              rw [issued_bind_ok first]
              have others := hypothesis ran
              constructor
              · exact congrArg (line :: ·) others.1
              · exact congrArg (_ ++ ·) others.2

/--
A session that ends without error asks for exactly what its transcript says,
and each blank line dispatches exactly the commands then pending.
-/
theorem batches_dispatched
    (handler : Handler Call Reply σ)
    (helper : Helper)
    (lines : List Text)
    (state ended : σ)
    (last : Session)
    (ran :
      Prog.run handler (run helper lines) state = (.ok last, ended)) :
    (transcript handler helper .new lines state).map Entry.line = lines ∧
      (transcript handler helper .new lines state).flatMap Entry.calls =
        issued handler (run helper lines) state ∧
      ∀ earlier entry later,
        transcript handler helper .new lines state =
            earlier ++ entry :: later →
          entry.Follows helper.engine earlier := by
  have complete := transcript_complete ran
  refine ⟨complete.1, complete.2, fun earlier entry later split => ?_⟩
  have begun : Session.new.After [] := ⟨rfl, rfl⟩
  exact transcript_follows begun split

end Sessions

end Turns

/-! ## A session -/

section Schedules

attribute [local instance] Platform.simple

/-- Every call succeeds, and no push reports anything. -/
def obliging : Handler Call Reply Unit := fun request state =>
  match request with
  | .pushBatch _ _ => (some [], state)
  | .write _ => (some (), state)
  | .flush => (some (), state)
  | .raiseToInfo => (some (), state)
  | .handleBundleUri _ => (some (), state)
  | .handleList _ _ => (some (), state)
  | .fetchBatch _ _ _ => (some (), state)

/-- A fetch discarded by a switch, a push, nothing, and a shallow fetch. -/
def switchedLines : List Text :=
  [lit "fetch a", lit "option depth 2", lit "push b", [], [],
    lit "fetch c", []]

example :
    (issued obliging (run ⟨.bundle, false, false⟩ switchedLines)
      ()).filter Call.isBatch =
        [.pushBatch .bundle [['b']],
          .fetchBatch .bundle [['c']] (some ⟨2, by decide, by decide⟩)] := by
  decide +kernel

theorem batches_dispatched_switched :
    (transcript obliging ⟨.bundle, false, false⟩ .new switchedLines
        ()).map Entry.line = switchedLines ∧
      (transcript obliging ⟨.bundle, false, false⟩ .new switchedLines
          ()).flatMap Entry.calls =
        issued obliging (run ⟨.bundle, false, false⟩ switchedLines) () ∧
      ∀ earlier entry later,
        transcript obliging ⟨.bundle, false, false⟩ .new switchedLines () =
            earlier ++ entry :: later →
          entry.Follows .bundle earlier :=
  batches_dispatched obliging ⟨.bundle, false, false⟩ switchedLines () ()
    .new (by decide +kernel)

end Schedules

end GitRemoteObjectStore.Repl
