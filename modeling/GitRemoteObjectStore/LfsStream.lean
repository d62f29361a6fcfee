import GitRemoteObjectStore.LfsLedger

/-!
# The event stream of git-lfs

Every transfer is answered with progress whose totals are the running sums of
what was reported, and then with one last line.  When the transfer succeeds,
the last total is the size of the object, unless a download was tried again
and ranges of its first attempt have been reported: their bytes are counted
twice.
-/

namespace GitRemoteObjectStore.Lfs

open CallProgram Prog DeltaFormat RunningTotals

/-! ## Reports on their way -/

variable {ε ε' α β : Type} {world : World} {progress : Progress}

/--
What has been sent is what the transfer and its aborted tasks have reported.
-/
def Flows (progress : Progress) : Prop :=
  ∃ sent,
    progress.forward.Sent u64Max sent ∧
      sent.sum = progress.ledger.reported + progress.straggled ∧
      progress.straggled + progress.straggling.sum =
        progress.ledger.abandoned

theorem flows_initial (time : Nat) : Flows { time := time } :=
  ⟨[], Forward.sent_initial, rfl, rfl⟩

theorem Flows.turn
    (flows : Flows progress)
    (turn : Turn) :
    Flows (progress.turn turn) := by
  rcases flows with ⟨sent, queued, sum, left⟩
  cases turn with
  | receive => exact ⟨sent, queued.receive, sum, left⟩
  | straggle place =>
      rw [Progress.turn]
      cases found : progress.straggling[place]? with
      | none => exact ⟨sent, queued, sum, left⟩
      | some amount =>
          rcases List.getElem?_eq_some_iff.1 found with ⟨inside, rfl⟩
          have moved :=
            (List.getElem_cons_eraseIdx_perm inside).sum_eq
          rw [List.sum_cons] at moved
          refine ⟨_, queued.send _, ?_, ?_⟩
          · rw [List.sum_append, List.sum_singleton, sum, Nat.add_assoc]
          · show
              progress.straggled + progress.straggling[place] +
                  (progress.straggling.eraseIdx place).sum =
                progress.ledger.abandoned
            omega

theorem ledger_turn (turn : Turn) :
    (progress.turn turn).ledger = progress.ledger := by
  cases turn with
  | receive => rfl
  | straggle place =>
      rw [Progress.turn]
      split <;> rfl

theorem Flows.turns (flows : Flows progress) :
    Flows (progress.turns world) := by
  rw [Progress.turns]
  induction world.turns progress.time generalizing progress with
  | nil => exact flows
  | cons turn rest hypothesis => exact hypothesis (flows.turn turn)

theorem ledger_turns :
    (progress.turns world).ledger = progress.ledger := by
  rw [Progress.turns]
  induction world.turns progress.time generalizing progress with
  | nil => rfl
  | cons turn rest hypothesis =>
      rw [List.foldl_cons, hypothesis, ledger_turn]

theorem ledger_step
    (entry : Noted Request Notice)
    (reply : Noted.Reply Reply entry) :
    (progress.step entry reply).ledger =
      book progress.ledger entry reply := by
  cases entry with
  | call request => rfl
  | notice note => cases note <;> rfl

/-- Nothing that is asked for is a report. -/
theorem book_call
    (ledger : Ledger)
    (asked : Request)
    (reply : Reply asked) :
    (book ledger (.call asked) reply).reported = ledger.reported ∧
      (book ledger (.call asked) reply).abandoned = ledger.abandoned := by
  rw [book.eq_def]
  split
  next => exact ⟨rfl, rfl⟩
  next => exact ⟨rfl, rfl⟩
  next => exact ⟨rfl, rfl⟩
  all_goals contradiction

theorem Flows.step
    (flows : Flows progress)
    (entry : Noted Request Notice)
    (reply : Noted.Reply Reply entry) :
    Flows (progress.step entry reply) := by
  rcases flows with ⟨sent, queued, sum, left⟩
  cases entry with
  | call asked =>
      have same := book_call progress.ledger asked reply
      refine ⟨sent, queued, ?_, ?_⟩
      · rw [ledger_step, same.1]
        exact sum
      · rw [ledger_step, same.2]
        exact left
  | notice note =>
      cases note with
      | report amount =>
          refine ⟨_, queued.send amount, ?_, left⟩
          rw [List.sum_append, List.sum_singleton, sum]
          exact Nat.add_right_comm _ _ _
      | abandon amounts =>
          refine ⟨sent, queued, sum, ?_⟩
          show
            progress.straggled + (progress.straggling ++ amounts).sum =
              progress.ledger.abandoned + amounts.sum
          rw [List.sum_append, ← Nat.add_assoc, left]
      | retrying => exact ⟨sent, queued, sum, left⟩

theorem World.answer_fits
    (world : World)
    (time : Nat)
    (entry : Noted Request Notice) :
    FitsNoted entry (world.answer time entry) := by
  cases entry with
  | call asked => exact world.fits time asked
  | notice note => trivial

/-- Wherever the reports are taken from the channel, nothing is lost. -/
theorem Flows.drive
    (flows : Flows progress)
    (world : World)
    (op : Op ε α) :
    Flows (Lfs.drive world op progress).2 := by
  induction op generalizing progress with
  | done value => exact flows.turns
  | fail error => exact flows.turns
  | call entry next hypothesis =>
      exact hypothesis _ (flows.turns.step entry _)

/-- The ledger is the one that is kept of the transfer alone. -/
theorem drive_keeps
    {post : Except ε α → Ledger → Prop}
    {op : Op ε α}
    (keeps : Keeps post op progress.ledger) :
    post (drive world op progress).1
      (drive world op progress).2.ledger := by
  induction op generalizing progress with
  | done value =>
      rw [drive, ledger_turns]
      exact keeps
  | fail error =>
      rw [drive, ledger_turns]
      exact keeps
  | call entry next hypothesis =>
      apply hypothesis
      rw [ledger_step, ledger_turns]
      exact keeps _ (world.answer_fits _ entry)

/-! ## One transfer -/

/-- The transfer has completed without an error. -/
def Answer.Succeeded (answer : Answer) : Prop :=
  ∃ path, answer.complete = some (path, none)

/-- Progress whose totals are running sums, and one last line. -/
structure Segment (oid : Text) (answer : Answer) : Prop where
  lines :
    ∃ path error,
      answer.lines =
        (answer.progress.map fun entry =>
          Line.progress oid entry.1 entry.2) ++
          [.complete oid path error]
  running : Running 0 answer.progress
  increasing : (answer.progress.map Prod.fst).Pairwise (· < ·)

/-- The last total of a transfer that succeeds is the size of the object. -/
def Answer.SizeTold (answer : Answer) : Prop :=
  answer.Succeeded → answer.progress ≠ [] →
    answer.ledger.moved = some (lastTotal 0 answer.progress)

/--
If the transfer succeeds, no range of an attempt that was given up has been
reported, before it was given up or after.
-/
def Answer.Undisturbed (answer : Answer) : Prop :=
  answer.Succeeded → answer.ledger.before = 0 ∧ answer.straggled = 0

/-- What a transfer is answered with. -/
structure Answered (oid : Text) (answer : Answer) : Prop
    extends Segment oid answer where
  sized : answer.SizeTold ↔ answer.Undisturbed

theorem answered_rejected (text : Text) (error : LfsOidError) :
    Answered text (rejected text error) where
  lines := ⟨_, _, rfl⟩
  running := trivial
  increasing := List.Pairwise.nil
  sized := by
    constructor
    · rintro told ⟨path, succeeded⟩
      cases succeeded
    · rintro undisturbed ⟨path, succeeded⟩
      cases succeeded

/-- All that is known of the reports of a transfer when it is over. -/
structure Accounts (answer : Answer) (sent : List Nat) : Prop where
  entered : answer.progress = entries u64Max 0 sent
  sum : sent.sum = answer.ledger.reported + answer.straggled
  given : answer.straggled ≤ answer.ledger.abandoned
  bounded : answer.ledger.reported + answer.ledger.abandoned < 2 ^ 64

section Accounts

variable {answer : Answer} {sent : List Nat}

theorem Accounts.within (accounts : Accounts answer sent) :
    0 + sent.sum ≤ u64Max := by
  have sum := accounts.sum
  have given := accounts.given
  have bounded := accounts.bounded
  rw [u64Max]
  omega

theorem Accounts.running (accounts : Accounts answer sent) :
    Running 0 answer.progress := by
  rw [accounts.entered]
  exact running_entries accounts.within

theorem Accounts.increasing (accounts : Accounts answer sent) :
    (answer.progress.map Prod.fst).Pairwise (· < ·) := by
  rw [accounts.entered]
  exact (List.pairwise_cons.1 (increasing_entries accounts.within)).2

/-- Bytes that were reported before or beside the object are too many. -/
theorem Accounts.sized
    (accounts : Accounts answer sent)
    (settled :
      answer.ledger.reported = 0 ∧ answer.ledger.abandoned = 0 ∧
          answer.ledger.before = 0 ∨
        ∃ size, answer.ledger.moved = some size ∧
          answer.ledger.reported = answer.ledger.before + size) :
    answer.SizeTold ↔ answer.Undisturbed := by
  have sum := accounts.sum
  have given := accounts.given
  have last : lastTotal 0 answer.progress = sent.sum := by
    rw [accounts.entered, lastTotal_entries accounts.within, Nat.zero_add]
  have silent : answer.progress = [] ↔ sent.sum = 0 := by
    rw [accounts.entered]
    exact entries_eq_nil_iff
  rcases settled with ⟨reported, abandoned, before⟩ | ⟨size, moved, whole⟩
  · have nothing : answer.progress = [] := silent.2 (by omega)
    constructor
    · intro told succeeded
      exact ⟨before, by omega⟩
    · intro undisturbed succeeded progressed
      exact absurd nothing progressed
  · constructor
    · intro told succeeded
      by_cases nothing : answer.progress = []
      · have empty := silent.1 nothing
        exact ⟨by omega, by omega⟩
      · have same := told succeeded nothing
        rw [moved, last] at same
        have size_eq : size = sent.sum := Option.some.inj same
        exact ⟨by omega, by omega⟩
    · intro undisturbed succeeded progressed
      have none := undisturbed succeeded
      rw [moved, last]
      exact congrArg some (by omega)

end Accounts

/-- A transfer that keeps its ledger is answered. -/
theorem answered_transfer
    {op : Op Agent.OpError (Option Text)}
    (keeps : Keeps (Settled (· ≠ .panic)) op {})
    (world : World)
    (time : Nat)
    (oid : LfsOid) :
    Answered oid.asStr (transfer world time oid op).1 := by
  rcases (flows_initial time).drive world op with
    ⟨sent, queued, sum, left⟩
  have settled :
      Settled (· ≠ .panic) (drive world op { time := time }).1
        (drive world op { time := time }).2.ledger :=
    drive_keeps keeps
  have accounts
      (bounded :
        (drive world op { time := time }).2.ledger.reported +
            (drive world op { time := time }).2.ledger.abandoned <
          2 ^ 64) :
      Accounts (transfer world time oid op).1 sent := by
    constructor
    · exact queued.entered_drain
    · exact sum
    · exact Nat.le.intro left
    · exact bounded
  have complete :
      (transfer world time oid op).1.complete =
        completeOf (drive world op { time := time }).1 :=
    rfl
  cases outcome : (drive world op { time := time }).1 with
  | ok path =>
      rw [outcome] at settled complete
      have known := accounts settled.1
      exact
        { lines := ⟨path, none, by rw [Answer.lines, complete]; rfl⟩
          running := known.running
          increasing := known.increasing
          sized := known.sized settled.2 }
  | error error =>
      rw [outcome] at settled complete
      have known := accounts settled.2
      cases error with
      | panic => exact absurd rfl settled.1
      | failed message =>
          have failed :
              ¬ (transfer world time oid op).1.Succeeded := by
            rintro ⟨path, succeeded⟩
            rw [complete] at succeeded
            cases succeeded
          exact
            { lines := ⟨none, some ⟨errCodeGeneric, message⟩,
                by rw [Answer.lines, complete]; rfl⟩
              running := known.running
              increasing := known.increasing
              sized :=
                iff_of_true (fun succeeded => absurd succeeded failed)
                  (fun succeeded => absurd succeeded failed) }

/-! ## Whole sessions -/

theorem answered_upload [Target]
    (agent : Agent)
    (world : World)
    (time : Nat)
    (oid : LfsOid)
    (path : Text) :
    Answered oid.asStr (upload agent world time oid path).1 := by
  apply answered_transfer
  apply Books.bind
  apply (keeps_tryUpload agent oid path).weaken
  intro outcome ledger settled
  cases outcome with
  | ok done => exact settled
  | error error => exact settled

theorem answered_download
    (agent : Agent)
    (world : World)
    (time : Nat)
    (oid : LfsOid) :
    Answered oid.asStr (download agent world time oid).1 := by
  apply answered_transfer
  apply Books.bind
  apply (keeps_tryDownload agent oid).weaken
  intro outcome ledger settled
  cases outcome with
  | ok destination => exact settled
  | error error => exact settled

/-- The object that an event is about. -/
def Event.oid? : Event → Option Text
  | .upload oid _ _ => some oid
  | .download oid _ => some oid
  | .init _ => none
  | .terminate => none

theorem Segment.isSome
    {oid : Text}
    {answer : Answer}
    (segment : Segment oid answer) :
    answer.complete.isSome = true := by
  rcases segment.lines with ⟨path, error, lines⟩
  cases complete : answer.complete with
  | some last => rfl
  | none =>
      have counted := congrArg List.length lines
      simp [Answer.lines, complete] at counted

theorem asStr_of_fromStr
    {text : Text}
    {oid : LfsOid}
    (valid : LfsOid.fromStr text = .ok oid) :
    oid.asStr = text := by
  rw [LfsOid.fromStr] at valid
  split at valid
  · split at valid
    · cases valid
      rfl
    · cases valid
  · cases valid

/-- Each transfer is answered, in the order of the events. -/
theorem answered_loop [Target]
    (agent : Agent)
    (world : World)
    (time : Nat)
    {events rest : List Event}
    (inner : .terminate ∉ events)
    (ended : rest = [] ∨ ∃ later, rest = .terminate :: later) :
    List.Forall₂ Answered (events.filterMap Event.oid?)
      (loop agent world time (events ++ rest)) := by
  induction events generalizing time with
  | nil =>
      rcases ended with rfl | ⟨later, rfl⟩
      · exact List.Forall₂.nil
      · exact List.Forall₂.nil
  | cons event events hypothesis =>
      have inner' : .terminate ∉ events :=
        fun member => inner (List.mem_cons_of_mem event member)
      cases event with
      | terminate => exact absurd List.mem_cons_self inner
      | init remote => exact hypothesis time inner'
      | upload oid size path =>
          show List.Forall₂ Answered (oid :: events.filterMap Event.oid?) _
          rw [List.cons_append, loop]
          cases checked : LfsOid.fromStr oid with
          | error error =>
              exact .cons (answered_rejected oid error)
                (hypothesis time inner')
          | ok valid =>
              have answered := answered_upload agent world time valid path
              rw [asStr_of_fromStr checked] at answered
              dsimp only
              rw [if_pos answered.isSome]
              exact .cons answered (hypothesis _ inner')
      | download oid size =>
          show List.Forall₂ Answered (oid :: events.filterMap Event.oid?) _
          rw [List.cons_append, loop]
          cases checked : LfsOid.fromStr oid with
          | error error =>
              exact .cons (answered_rejected oid error)
                (hypothesis time inner')
          | ok valid =>
              have answered := answered_download agent world time valid
              rw [asStr_of_fromStr checked] at answered
              dsimp only
              rw [if_pos answered.isSome]
              exact .cons answered (hypothesis _ inner')

theorem sized_of_answered
    {oids : List Text}
    {answers : List Answer}
    (answered : List.Forall₂ Answered oids answers) :
    ∀ answer ∈ answers, answer.SizeTold ↔ answer.Undisturbed := by
  induction answered with
  | nil => exact nofun
  | cons first later hypothesis =>
      intro answer member
      rcases List.mem_cons.1 member with rfl | further
      · exact first.sized
      · exact hypothesis answer further

/--
In a session whose remote is resolved every transfer is answered in turn, and
the sizes are told if and only if no transfer that succeeds has reported ranges
of an attempt that was given up.
-/
theorem run_iff [Target]
    (resolve : Text → Except Text Agent)
    (world : World)
    (remote : Text)
    (agent : Agent)
    (events rest : List Event)
    (ready : initAgent resolve remote = .ok agent)
    (inner : .terminate ∉ events)
    (ended : rest = [] ∨ ∃ later, rest = .terminate :: later) :
    ∃ answers,
      run resolve world (.init remote :: (events ++ rest)) =
          .ok (.ack none :: answers.flatMap Answer.lines) ∧
        List.Forall₂ Segment (events.filterMap Event.oid?) answers ∧
        answers = loop agent world 0 (events ++ rest) ∧
        ((∀ answer ∈ answers, answer.SizeTold) ↔
          ∀ answer ∈ answers, answer.Undisturbed) := by
  have answered := answered_loop agent world 0 inner ended
  refine ⟨loop agent world 0 (events ++ rest), ?_, ?_, rfl, ?_⟩
  · rw [run, ready]
  · exact answered.imp fun oid answer told => told.toSegment
  · have sized := sized_of_answered answered
    constructor
    · intro told answer member
      exact (sized answer member).1 (told answer member)
    · intro undisturbed answer member
      exact (sized answer member).2 (undisturbed answer member)

/-! ## Without aborted tasks in between -/

theorem complete_transfer
    (world : World)
    (time : Nat)
    (oid : LfsOid)
    (op : Op Agent.OpError (Option Text)) :
    (transfer world time oid op).1.complete =
      completeOf (drive world op { time := time }).1 :=
  rfl

theorem ledger_transfer
    (world : World)
    (time : Nat)
    (oid : LfsOid)
    (op : Op Agent.OpError (Option Text)) :
    (transfer world time oid op).1.ledger =
      (drive world op { time := time }).2.ledger :=
  rfl

theorem drive_bind
    (calm : ∀ time, world.turns time = [])
    (op : Op ε α)
    (next : α → Op ε β)
    (progress : Progress) :
    drive world (op >>= next) progress =
      match drive world op progress with
      | (.ok value, later) => drive world (next value) later
      | (.error error, later) => (.error error, later) := by
  induction op generalizing progress with
  | done value =>
      have still : progress.turns world = progress := by
        rw [Progress.turns, calm]
        rfl
      rw [drive, still]
      rfl
  | fail error => rfl
  | call entry rest hypothesis => exact hypothesis _ _

theorem drive_attempt
    (op : Op ε α)
    (progress : Progress) :
    drive world (op.attempt : Op ε' (Except ε α)) progress =
      (.ok (drive world op progress).1, (drive world op progress).2) := by
  induction op generalizing progress with
  | done value => rfl
  | fail error => rfl
  | call entry rest hypothesis => exact hypothesis _ _

theorem drive_mapError
    (world : World)
    (convert : ε → ε')
    (op : Op ε α)
    (progress : Progress) :
    drive world (op.mapError convert) progress =
      ((drive world op progress).1.mapError convert,
        (drive world op progress).2) := by
  induction op generalizing progress with
  | done value => rfl
  | fail error => rfl
  | call entry rest hypothesis => exact hypothesis _ _

/-! ## A download that is tried again -/

/-- A reply to each request with which the transfer goes on. -/
def agree : (asked : Request) → Reply asked
  | .s3 .head => .error (.notFound ['k'])
  | .s3 (.getObject _) => .ok ⟨[[0]], false⟩
  | .s3 (.getRange _ _ _) => .ok ⟨[[0]], false⟩
  | .s3 (.file _) => .ok ()
  | .s3 .writeRange => .ok ()
  | .s3 (.schedule _) => 0
  | .s3 (.persist _) => .ok ()
  | .upload (.createMultipartUpload _ _ _ _) => .ok none
  | .upload .intoStd => ()
  | .upload (.joinNext _) => (0, .closed)
  | .upload (.completeMultipartUpload _ _ _ _) => .ok ()
  | .upload (.abortMultipartUpload _ _ _) => .ok ()
  | .createDirAll => .ok ()
  | .openSource _ => .ok ()
  | .metadata => .ok 5
  | .buildStream => .ok ()
  | .putObject _ => .ok ()

/--
The object is larger than what is downloaded at once, and is replaced by a
smaller one after its first range has been downloaded.
-/
def replacedWorld
    (bytes : Bytes)
    (_length : bytes.length = 16777216) : World where
  reply := fun time asked =>
    match asked with
    | .s3 .head =>
        if time = 1 then .ok ⟨some 26214401, some 0, some ['a']⟩
        else .ok ⟨some 1, some 0, some ['b']⟩
    | .s3 (.getRange start _ _) =>
        if start = 0 then .ok ⟨[bytes], false⟩
        else .error (.preconditionFailed ['k'])
    | asked => agree asked
  turns := fun _ => []
  fits := by
    intro time asked
    cases asked with
    | s3 asked =>
        cases asked with
        | head =>
            dsimp only
            split
            · intro length given
              cases given
              decide
            · intro length given
              cases given
              decide
        | getObject ifMatch =>
            show [[(0 : UInt8)]].flatten.length < 2 ^ 63
            decide
        | _ => trivial
    | metadata =>
        show 5 < 2 ^ 63
        decide
    | _ => trivial

theorem planRanges_large :
    S3.planRanges 26214401 S3.multipartChunkSize =
      [(0, 16777215), (16777216, 26214400)] := by
  rw [S3.planRanges, S3.rangesFrom, if_pos (by decide)]
  dsimp only
  rw [S3.rangesFrom, if_pos (by decide)]
  dsimp only
  rw [S3.rangesFrom, if_neg (by decide)]
  rfl

section Replaced

variable
    {bytes : Bytes}
    (length : bytes.length = 16777216)
    {etag : Option Text}
    {transfer : S3.Transfer}
    {progress : Progress}

theorem calm_replacedWorld (time : Nat) :
    (replacedWorld bytes length).turns time = [] :=
  rfl

/-- A number of steps that are not booked. -/
def Progress.later (progress : Progress) (count : Nat) : Progress :=
  { progress with time := progress.time + count }

theorem drive_first_range :
    drive (replacedWorld bytes length)
        (advance etag transfer (.request 0 0 16777215)) progress =
      (.ok { transfer with
          tasks := transfer.tasks.set 0 (.received 0 16777215 bytes) },
        progress.later 1) := by
  have ranged :
      (ofExcept (S3.Stream.collect ⟨[bytes], false⟩) >>=
        fun bytes : Bytes =>
          if bytes.length ≠ 16777215 - 0 + 1 then .fail .other
          else return bytes : S3.Run Bytes) = .done bytes := by
    simp [S3.Stream.collect, length]
  show drive (replacedWorld bytes length)
    (store
      ((ofExcept (S3.Stream.collect ⟨[bytes], false⟩) >>=
        fun bytes : Bytes =>
          if bytes.length ≠ 16777215 - 0 + 1 then .fail .other
          else return bytes : S3.Run Bytes).attempt >>= _)) _ = _
  rw [ranged]
  rfl

theorem drive_write :
    drive (replacedWorld bytes length)
        (advance etag transfer (.write 0 0 bytes)) progress =
      (.ok
          (transfer.finish 0 (S3.writeAt transfer.file 0 bytes)
            (.ok ())),
        (progress.later 1).step (.notice (.report 16777216)) ()) := by
  have reported : report bytes.length = notify (.report 16777216) := by
    rw [report, length, if_pos (by decide)]
  show drive (replacedWorld bytes length)
    (report bytes.length >>= fun _ => .done _) _ = _
  rw [reported]
  rfl

theorem drive_transferAll_succ
    {count : Nat}
    {first : S3.Move}
    {others : List S3.Move}
    (moves : transfer.moves = first :: others) :
    drive (replacedWorld bytes length)
        (transferAll etag (count + 1) transfer) progress =
      drive (replacedWorld bytes length)
        (advance etag transfer first >>= transferAll etag count)
        (progress.later 1) := by
  rw [transferAll, moves]
  rfl

/-- The first range is reported, then the second turns out to be replaced. -/
theorem drive_ranges
    (etag : Option Text)
    (file : Bytes)
    (progress : Progress) :
    ∃ last,
      drive (replacedWorld bytes length)
          (transferAll etag 6
            ⟨file,
              [.waiting 0 16777215, .waiting 16777216 26214400], []⟩)
          progress =
        (.error (.error (.preconditionFailed ['k'])), last) ∧
      last.ledger.reported = progress.ledger.reported + 16777216 ∧
      last.time = progress.time + 10 := by
  have calm := calm_replacedWorld length
  rw [drive_transferAll_succ length rfl, drive_bind calm,
    drive_first_range]
  dsimp only
  rw [drive_transferAll_succ length rfl, drive_bind calm, drive_write]
  exact ⟨_, rfl, rfl, rfl⟩

theorem drive_first_attempt :
    ∃ last,
      drive (replacedWorld bytes length) headThenDownload { time := 1 } =
        (.error (.error (.preconditionFailed ['k'])), last) ∧
      last.ledger.reported = 16777216 ∧ last.time = 15 := by
  have calm := calm_replacedWorld length
  have head :
      drive (replacedWorld bytes length) (store S3.head) { time := 1 } =
        (.ok ⟨26214401, some ['a']⟩, { time := 2 }) :=
    rfl
  rcases drive_ranges length (some ['a']) (List.replicate 26214401 0)
      { time := 5 } with
    ⟨last, ranges, reported, time⟩
  have temp :
      drive (replacedWorld bytes length) downloadTemp { time := 1 } =
        (.error (.error (.preconditionFailed ['k'])), last) := by
    rw [downloadTemp, drive_bind calm, head]
    show drive (replacedWorld bytes length)
      (downloadMultipart 26214401 (some ['a'])) { time := 3 } = _
    rw [downloadMultipart, planRanges_large]
    show drive (replacedWorld bytes length)
      (transferAll (some ['a']) 6 (.start 26214401) >>= _)
        { time := 5 } = _
    rw [drive_bind calm, S3.Transfer.start, planRanges_large]
    simp only [List.map_cons, List.map_nil]
    rw [ranges]
  refine ⟨last, ?_, reported, time⟩
  rw [headThenDownload, drive_bind calm, temp]

theorem drive_second_attempt (late : progress.time ≠ 1) :
    ∃ last,
      drive (replacedWorld bytes length) headThenDownload progress =
        (.ok (), last) ∧
      last.ledger.before = progress.ledger.before := by
  have calm := calm_replacedWorld length
  have head :
      drive (replacedWorld bytes length) (store S3.head) progress =
        (.ok ⟨1, some ['b']⟩, progress.later 1) := by
    show drive _
      (store
        (ofExcept (Except.bind (if progress.time = 1 then _ else _) _)))
      _ = _
    rw [if_neg late]
    rfl
  rw [headThenDownload, drive_bind calm, downloadTemp, drive_bind calm,
    head]
  exact ⟨_, rfl, rfl⟩

def sampleOid : LfsOid where
  asStr := List.replicate 64 'a'
  length := by decide +kernel
  hex := by decide

def sampleAgent : Agent where
  bucket := ['b']
  bucketPrefix := []
  tmpDir := some ['t']

theorem disturbed_download :
    ¬ (download sampleAgent (replacedWorld bytes length) 0
      sampleOid).1.SizeTold := by
  have calm := calm_replacedWorld length
  rw [(answered_download _ _ _ _).sized]
  rcases drive_first_attempt length with ⟨first, failed, reported, time⟩
  have late : (first.step (.notice .retrying) ()).time ≠ 1 := by
    show first.time + 1 ≠ 1
    omega
  rcases drive_second_attempt length late with ⟨last, succeeded, before⟩
  have fetched :
      drive (replacedWorld bytes length) (getToFile true) { time := 1 } =
        (.ok (), last) := by
    rw [getToFile, if_pos rfl, drive_bind calm, drive_attempt, failed]
    exact succeeded
  have driven :
      drive (replacedWorld bytes length)
          (sampleAgent.tryDownload sampleOid >>= fun destination =>
            .done (some destination)) { time := 0 } =
        (.ok (some (Agent.joinPath ['t'] sampleOid.asStr)), last) := by
    have created :
        drive (replacedWorld bytes length)
            (.call (.call .createDirAll) fun created =>
              ofExcept
                (created.mapError fun _ => Agent.OpError.failed .io))
            { time := 0 } =
          (.ok (), { time := 1 }) :=
      rfl
    have mapped :=
      drive_mapError (replacedWorld bytes length) Agent.withCause
        (getToFile true) { time := 1 }
    rw [fetched] at mapped
    rw [drive_bind calm, Agent.tryDownload, drive_bind calm, created]
    dsimp only
    rw [drive_bind calm, mapped]
    rfl
  intro undisturbed
  have complete :
      (download sampleAgent (replacedWorld bytes length) 0
          sampleOid).1.complete =
        some (some (Agent.joinPath ['t'] sampleOid.asStr), none) := by
    rw [download, complete_transfer, driven]
    rfl
  have ledger :
      (download sampleAgent (replacedWorld bytes length) 0
          sampleOid).1.ledger = last.ledger := by
    rw [download, ledger_transfer, driven]
  have nothing := (undisturbed ⟨_, complete⟩).1
  rw [ledger, before] at nothing
  have none : first.ledger.reported = 0 := nothing
  omega

end Replaced

section Sessions

attribute [local instance] Multipart.wideTarget

def sampleWorld : World :=
  replacedWorld (List.replicate 16777216 0) List.length_replicate

def sampleEvents : List Event :=
  [.download sampleOid.asStr 26214401]

/--
An object of three bytes is downloaded in two pieces, and one of five that is
missing is uploaded; every report is taken from the channel at once.
-/
def keptWorld : World where
  reply := fun time asked =>
    match asked with
    | .s3 .head =>
        if time < 6 then .ok ⟨some 3, some 0, some ['a']⟩
        else .error (.notFound ['k'])
    | .s3 (.getObject _) => .ok ⟨[[0, 1], [2]], false⟩
    | asked => agree asked
  turns := fun _ => [.receive]
  fits := by
    intro time asked
    cases asked with
    | s3 asked =>
        cases asked with
        | head =>
            dsimp only
            split
            · intro length given
              cases given
              decide
            · trivial
        | getObject ifMatch =>
            show [[(0 : UInt8), 1], [2]].flatten.length < 2 ^ 63
            decide
        | _ => trivial
    | metadata =>
        show 5 < 2 ^ 63
        decide
    | _ => trivial

def keptEvents : List Event :=
  [.download sampleOid.asStr 3, .upload sampleOid.asStr 5 ['f']]

theorem fromStr_sampleOid :
    LfsOid.fromStr sampleOid.asStr = .ok sampleOid := by
  rw [LfsOid.fromStr, dif_pos sampleOid.length, dif_pos sampleOid.hex]

theorem loop_keptWorld :
    loop sampleAgent keptWorld 0 (keptEvents ++ [.terminate]) =
      [(download sampleAgent keptWorld 0 sampleOid).1,
        (upload sampleAgent keptWorld 11 sampleOid ['f']).1] := by
  rw [keptEvents, List.cons_append, loop, fromStr_sampleOid]
  dsimp only
  rw [List.cons_append, loop, fromStr_sampleOid]
  rfl

theorem undisturbed_keptWorld :
    ∀ answer ∈ loop sampleAgent keptWorld 0 (keptEvents ++ [.terminate]),
      answer.Undisturbed := by
  rw [loop_keptWorld]
  intro answer member _
  rcases List.mem_pair.1 member with rfl | rfl
  · exact ⟨rfl, rfl⟩
  · exact ⟨rfl, rfl⟩

theorem run_iff_sample :
    (∃ answers : List Answer,
      run (fun _ => .ok sampleAgent) sampleWorld
            (.init ['o'] :: (sampleEvents ++ [])) =
          .ok (.ack none :: answers.flatMap Answer.lines) ∧
        ((∀ answer ∈ answers, answer.SizeTold) ↔
          ∀ answer ∈ answers, answer.Undisturbed)) ∧
      ∃ answers : List Answer,
        run (fun _ => .ok sampleAgent) keptWorld
              (.init ['o'] :: (keptEvents ++ [.terminate])) =
            .ok (.ack none :: answers.flatMap Answer.lines) ∧
          answers.map Answer.progress = [[(2, 2), (3, 1)], [(5, 5)]] ∧
          ∀ answer ∈ answers, answer.SizeTold := by
  constructor
  · rcases run_iff (fun _ => .ok sampleAgent) sampleWorld ['o'] sampleAgent
        sampleEvents [] rfl (by decide) (Or.inl rfl) with
      ⟨answers, ran, _, _, sized⟩
    exact ⟨answers, ran, sized⟩
  · rcases run_iff (fun _ => .ok sampleAgent) keptWorld ['o'] sampleAgent
        keptEvents [.terminate] rfl (by decide) (Or.inr ⟨[], rfl⟩) with
      ⟨answers, ran, _, looped, sized⟩
    refine ⟨answers, ran, ?_, sized.2 ?_⟩
    · rw [looped, loop_keptWorld]
      rfl
    · rw [looped]
      exact undisturbed_keptWorld

/-- The bytes of the first range are counted twice. -/
theorem not_sizeTold :
    ∃ answers : List Answer,
      run (fun _ => .ok sampleAgent) sampleWorld
            (.init ['o'] :: (sampleEvents ++ [])) =
          .ok (.ack none :: answers.flatMap Answer.lines) ∧
        answers = loop sampleAgent sampleWorld 0 sampleEvents ∧
        ¬ ∀ answer ∈ answers, answer.SizeTold := by
  have answered :
      (download sampleAgent sampleWorld 0 sampleOid).1 ∈
        loop sampleAgent sampleWorld 0 sampleEvents := by
    rw [sampleEvents, loop, fromStr_sampleOid]
    exact List.mem_cons_self
  refine ⟨loop sampleAgent sampleWorld 0 sampleEvents, rfl, rfl, ?_⟩
  intro told
  exact disturbed_download _ (told _ answered)

end Sessions

end GitRemoteObjectStore.Lfs
