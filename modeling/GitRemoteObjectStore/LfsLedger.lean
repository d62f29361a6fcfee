import GitRemoteObjectStore.LfsAgent
import GitRemoteObjectStore.S3Atomicity

/-!
# What a transfer reports

A ledger is kept of the bytes a transfer reports, and of those that its tasks
would have reported when it gives them up.  A transfer that succeeds has
reported the object once, whatever the order in which its tasks come to an
end; a download that is tried again has reported, before that, the ranges
that had been written by then.
-/

namespace GitRemoteObjectStore.Lfs

open CallProgram Prog DeltaFormat RunningTotals

/-! ## The download without its reports -/

section Silence

variable {α β : Type}

/-- A program of the S3 store among the requests of the agent. -/
def plain (program : S3.Run α) : Prog Request Reply Stop α :=
  (ofS3 program).mapError .error

@[simp]
theorem silence_store (program : S3.Run α) :
    silence (store program) = plain program :=
  silence_quiet _

@[simp]
theorem silence_report (amount : Nat) :
    silence (report amount) = .done () := by
  rw [report]
  split <;> rfl

@[simp]
theorem silence_request (asked : Request) :
    silence (request asked) = .call asked .done :=
  rfl

@[simp]
theorem plain_done (value : α) : plain (.done value) = .done value :=
  rfl

@[simp]
theorem plain_fail (error : ObjectStoreError) :
    (plain (.fail error) : Prog Request Reply Stop α) =
      .fail (.error error) :=
  rfl

@[simp]
theorem plain_bind
    (program : S3.Run α)
    (next : α → S3.Run β) :
    plain (program >>= next) =
      plain program >>= fun value => plain (next value) := by
  induction program with
  | done value => rfl
  | fail error => rfl
  | call request rest hypothesis =>
      exact congrArg (Prog.call _) (funext hypothesis)

@[simp]
theorem plain_attempt (program : S3.Run α) :
    (plain program.attempt :
        Prog Request Reply Stop (Except ObjectStoreError α)) >>=
        (fun outcome => .done (outcome.mapError .error)) =
      (plain program).attempt := by
  induction program with
  | done value => rfl
  | fail error => rfl
  | call request rest hypothesis =>
      exact congrArg (Prog.call _) (funext hypothesis)

theorem silence_writePieces (content : Bytes) (pieces : List Bytes) :
    silence (writePieces content pieces) =
      plain (S3.writePieces content pieces) := by
  induction pieces generalizing content with
  | nil => rfl
  | cons piece rest hypothesis =>
      rw [writePieces, S3.writePieces]
      simp [hypothesis]

theorem silence_downloadSingle (etag : Option Text) :
    silence (downloadSingle etag) = plain (S3.downloadSingle etag) := by
  rw [downloadSingle, S3.downloadSingle]
  simp only [silence_bind, silence_store, plain_bind, silence_writePieces]
  congr 1
  funext stream
  congr 1
  funext _
  congr 1
  funext content
  split
  · rfl
  · simp

theorem silence_advance
    (etag : Option Text)
    (transfer : S3.Transfer)
    (move : S3.Move) :
    silence (advance etag transfer move) =
      plain (S3.advance etag transfer move) := by
  cases move with
  | request index start stop => exact silence_store _
  | write index start bytes =>
      rw [advance, S3.advance]
      rw [silence_bind]
      apply congrArg (Prog.call (Request.s3 S3.Call.writeRange))
      funext reply
      cases reply with
      | ok done =>
          show silence (report _ >>= fun _ => .done _) = plain (.done _)
          simp
      | error count => rfl
  | join outcome =>
      cases outcome with
      | ok done => exact silence_store _
      | error error => rfl

theorem silence_transferAll
    (etag : Option Text)
    (count : Nat)
    (transfer : S3.Transfer) :
    silence (transferAll etag count transfer) =
      plain (S3.transferAll etag count transfer) := by
  induction count generalizing transfer with
  | zero => rfl
  | succ count hypothesis =>
      rw [transferAll, S3.transferAll]
      cases transfer.moves with
      | nil => rfl
      | cons first others =>
          apply congrArg
            (Prog.call
              (Request.s3 (S3.Call.schedule (others.length + 1))))
          funext choice
          show silence (_ >>= _) = plain (_ >>= _)
          simp [silence_advance, hypothesis]

theorem silence_downloadTemp :
    silence downloadTemp = plain S3.downloadTemp := by
  rw [downloadTemp, S3.downloadTemp]
  simp only [silence_bind, silence_store, plain_bind]
  congr 1
  funext found
  congr 1
  funext _
  split
  · rfl
  split
  · exact silence_downloadSingle _
  · rw [downloadMultipart, S3.downloadMultipart]
    simp [silence_transferAll]

theorem silence_headThenDownload :
    silence headThenDownload = plain S3.headThenDownload := by
  rw [headThenDownload, S3.headThenDownload]
  simp [silence_downloadTemp]

/-- Without its reports, a download is the one that is atomic. -/
theorem silence_getToFile (hasParent : Bool) :
    silence (getToFile hasParent) = plain (S3.getToFile hasParent) := by
  rw [getToFile, S3.getToFile]
  split
  · simp only [silence_bind, silence_attempt, silence_headThenDownload,
      plain_bind, ← plain_attempt, bind_assoc, done_bind]
    congr 1
    funext outcome
    cases outcome with
    | ok value => rfl
    | error error =>
        cases error with
        | preconditionFailed key =>
            show silence (notify _ >>= fun _ => headThenDownload) =
              plain S3.headThenDownload
            simp [silence_headThenDownload]
        | _ => rfl
  · rfl

end Silence

/-! ## The ledger of a download -/

def FitsNoted :
    (entry : Noted Request Notice) → Noted.Reply Reply entry → Prop
  | .call asked, reply => Fits asked reply
  | .notice _, _ => True

/-- The ledger ends as the postcondition says. -/
abbrev Keeps {ε α : Type}
    (post : Except ε α → Ledger → Prop)
    (op : Op ε α)
    (ledger : Ledger) : Prop :=
  Books FitsNoted book post op ledger

section Ledger

variable
    {α β : Type}
    {ledger : Ledger}
    {etag : Option Text}

/-- What the S3 store asks for short of the rename is not booked. -/
theorem keeps_store
    {post : Except Stop α → Ledger → Prop}
    {good : α → Prop}
    {program : S3.Run α}
    (elsewhere : Issues (fun _ _ => True) S3.Call.Elsewhere program)
    (returns :
      Returns (fun asked reply => Fits (.s3 asked) reply) good program)
    (ok : ∀ value, good value → post (.ok value) ledger)
    (fails : ∀ error, post (.error (.error error)) ledger) :
    Keeps post (store program) ledger := by
  induction program with
  | done value => exact ok value returns
  | fail error => exact fails error
  | call asked next hypothesis =>
      intro reply fits
      have same :
          book ledger (.call (.s3 asked)) reply = ledger := by
        cases asked with
        | persist content => exact absurd rfl (elsewhere.1 content)
        | _ => rfl
      show Keeps post (store (next reply))
        (book ledger (.call (.s3 asked)) reply)
      rw [same]
      exact
        hypothesis reply (elsewhere.2 reply trivial) (returns reply fits)

theorem keeps_fileStep
    {post : Except Stop Unit → Ledger → Prop}
    (step : S3.FileStep)
    (ok : post (.ok ()) ledger)
    (fails : ∀ error, post (.error (.error error)) ledger) :
    Keeps post (store (S3.fileStep step)) ledger :=
  keeps_store (S3.issues_fileStep step) (returns_any _)
    (fun _ _ => ok) fails

theorem keeps_report
    {post : Except Stop Unit → Ledger → Prop}
    (amount : Nat)
    (ok :
      post (.ok ()) { ledger with reported := ledger.reported + amount }) :
    Keeps post (report amount) ledger := by
  rw [report]
  split
  · intro reply fits
    exact ok
  next none =>
      obtain rfl : amount = 0 := by omega
      exact ok

theorem keeps_writePieces
    {post : Except Stop Bytes → Ledger → Prop}
    (content : Bytes)
    (pieces : List Bytes)
    (ok :
      post (.ok (content ++ pieces.flatten))
        { ledger with
          reported := ledger.reported + pieces.flatten.length })
    (fails :
      ∀ error more, more ≤ pieces.flatten.length →
        post (.error (.error error))
          { ledger with reported := ledger.reported + more }) :
    Keeps post (writePieces content pieces) ledger := by
  induction pieces generalizing content ledger with
  | nil =>
      rw [List.flatten_nil, List.append_nil] at ok
      exact ok
  | cons piece rest hypothesis =>
      rw [List.flatten_cons, List.length_append] at fails
      rw [List.flatten_cons, List.length_append, ← List.append_assoc,
        ← Nat.add_assoc] at ok
      apply Books.bind
      apply keeps_fileStep
      · apply Books.bind
        apply keeps_report
        apply hypothesis
        · exact ok
        · intro error more bounded
          have failed := fails error (piece.length + more) (by omega)
          rw [← Nat.add_assoc] at failed
          exact failed
      · intro error
        exact fails error 0 (by omega)

/-- A small object is reported as it is written. -/
theorem keeps_downloadSingle
    {post : Except Stop Bytes → Ledger → Prop}
    (ok :
      ∀ content : Bytes, content.length < 2 ^ 63 →
        post (.ok content)
          { ledger with reported := ledger.reported + content.length })
    (fails :
      ∀ error more, more < 2 ^ 63 →
        post (.error (.error error))
          { ledger with reported := ledger.reported + more }) :
    Keeps post (downloadSingle etag) ledger := by
  have asked :
      Issues (fun _ _ => True) S3.Call.Elsewhere
        (.call (.getObject etag) ofExcept : S3.Run S3.Stream) :=
    ⟨fun _ => nofun, fun _ _ => issues_ofExcept _⟩
  have answered :
      Returns (fun asked reply => Fits (.s3 asked) reply)
        (fun stream : S3.Stream =>
          stream.pieces.flatten.length < 2 ^ 63)
        (.call (.getObject etag) ofExcept : S3.Run S3.Stream) := by
    intro reply fits
    cases reply with
    | ok stream => exact fits
    | error error => trivial
  have fails' (error : ObjectStoreError) :
      post (.error (.error error)) ledger :=
    fails error 0 (by omega)
  apply Books.bind
  apply keeps_store asked answered
  · intro stream small
    apply Books.bind
    apply keeps_fileStep
    · apply Books.bind
      apply keeps_writePieces
      · rw [List.nil_append]
        show Keeps post (if _ then _ else _) _
        split
        · exact fails _ _ small
        · apply Books.bind
          apply keeps_fileStep
          · exact ok _ small
          · intro error
            exact fails error _ small
      · intro error more bounded
        exact fails error more (by omega)
    · exact fails'
  · exact fails'

/-! ## Ranges -/

/-- The bytes that are still to be reported. -/
def outstanding (transfer : S3.Transfer) : Nat :=
  (transfer.tasks.map taskAmount).sum

/-- What a task writes lies within an object of this size. -/
def Inside (size : Nat) : S3.Task → Prop
  | .waiting start stop => start ≤ stop ∧ stop < size
  | .received start _ bytes => start + bytes.length ≤ size
  | .ended => True

/--
What has been reported and what is outstanding is the whole object, unless a
failure waits to be joined.
-/
structure Accounted
    (size reported : Nat)
    (transfer : S3.Transfer) : Prop where
  file : transfer.file.length = size
  inside : ∀ task ∈ transfer.tasks, Inside size task
  bounded : reported + outstanding transfer ≤ size
  whole :
    reported + outstanding transfer = size ∨
      ∃ error, Except.error error ∈ transfer.joinable

section Accounted

variable
    {size reported index start stop : Nat}
    {transfer : S3.Transfer}
    {old : S3.Task}

theorem Accounted.inside_set
    (accounted : Accounted size reported transfer)
    {new : S3.Task}
    (holds : Inside size new) :
    ∀ task ∈ transfer.tasks.set index new, Inside size task := by
  intro task member
  rcases List.mem_or_eq_of_mem_set member with earlier | rfl
  · exact accounted.inside task earlier
  · exact holds

/-- A range that has been received is still to be reported. -/
theorem Accounted.received
    (accounted : Accounted size reported transfer)
    (found : transfer.tasks[index]? = some (.waiting start stop))
    {bytes : Bytes}
    (length : bytes.length = stop - start + 1) :
    Accounted size reported
      { transfer with
        tasks := transfer.tasks.set index (.received start stop bytes) } := by
  have bounds := accounted.inside _ (List.mem_of_getElem? found)
  have sums :=
    S3.sum_map_set taskAmount found (.received start stop bytes)
  have same :
      outstanding
          { transfer with
            tasks := transfer.tasks.set index
              (.received start stop bytes) } =
        outstanding transfer := by
    simp only [taskAmount] at sums
    simp only [outstanding]
    omega
  constructor
  · exact accounted.file
  · apply accounted.inside_set
    rw [Inside]
    have low := bounds.1
    have high := bounds.2
    omega
  · rw [same]
    exact accounted.bounded
  · rw [same]
    exact accounted.whole

/-- A task that has failed reports nothing any more. -/
theorem Accounted.failed
    (accounted : Accounted size reported transfer)
    (found : transfer.tasks[index]? = some old)
    {file : Bytes}
    (length : file.length = size)
    (error : ObjectStoreError) :
    Accounted size reported
      (transfer.finish index file (.error error)) := by
  have sums := S3.sum_map_set taskAmount found .ended
  have bounded := accounted.bounded
  constructor
  · exact length
  · exact accounted.inside_set trivial
  · simp only [taskAmount] at sums
    simp only [outstanding, S3.Transfer.finish] at bounded ⊢
    omega
  · exact Or.inr ⟨error, by simp [S3.Transfer.finish]⟩

/-- A range that has been written has been reported. -/
theorem Accounted.written
    (accounted : Accounted size reported transfer)
    {bytes : Bytes}
    (found : transfer.tasks[index]? = some (.received start stop bytes)) :
    Accounted size (reported + bytes.length)
      (transfer.finish index (S3.writeAt transfer.file start bytes)
        (.ok ())) := by
  have bounds : start + bytes.length ≤ size :=
    accounted.inside _ (List.mem_of_getElem? found)
  have sums := S3.sum_map_set taskAmount found .ended
  have same :
      reported + bytes.length +
          outstanding
            (transfer.finish index (S3.writeAt transfer.file start bytes)
              (.ok ())) =
        reported + outstanding transfer := by
    simp only [taskAmount] at sums
    simp only [outstanding, S3.Transfer.finish]
    omega
  constructor
  · rw [← accounted.file] at bounds
    exact (S3.writeAt_length bounds).trans accounted.file
  · exact accounted.inside_set trivial
  · rw [same]
    exact accounted.bounded
  · rw [same]
    rcases accounted.whole with whole | ⟨error, waits⟩
    · exact Or.inl whole
    · exact Or.inr ⟨error, by simp [S3.Transfer.finish, waits]⟩

theorem Accounted.joined
    (accounted : Accounted size reported transfer)
    {rest : List (Except ObjectStoreError Unit)}
    (pending : transfer.joinable = .ok () :: rest) :
    Accounted size reported
      { transfer with joinable := transfer.joinable.tail } := by
  constructor
  · exact accounted.file
  · exact accounted.inside
  · exact accounted.bounded
  · rcases accounted.whole with whole | ⟨error, waits⟩
    · exact Or.inl whole
    · rw [pending] at waits
      rcases List.mem_cons.1 waits with impossible | later
      · cases impossible
      · exact Or.inr ⟨error, by simpa [pending] using later⟩

/-- When nothing is left to do, the whole object has been reported. -/
theorem Accounted.reported_eq
    (accounted : Accounted size reported transfer)
    (stuck : transfer.moves = []) :
    reported = size := by
  have settled := S3.Transfer.settled_of_moves_nil stuck
  have nothing : outstanding transfer = 0 := by
    apply List.sum_eq_zero
    intro amount member
    rcases List.mem_map.1 member with ⟨task, present, rfl⟩
    rw [settled.1 task present]
    rfl
  rcases accounted.whole with whole | ⟨error, waits⟩
  · omega
  · rw [settled.2] at waits
    cases waits

theorem accounted_start (size : Nat) :
    Accounted size 0 (.start size) := by
  have positive : 0 < S3.multipartChunkSize := by decide
  have whole : outstanding (.start size) = size := by
    have tiled :=
      congrArg List.length
        (S3.rangesFrom_tile positive (Nat.zero_le size))
    rw [List.length_flatMap, List.length_range'] at tiled
    simp only [List.length_range'] at tiled
    simpa [outstanding, S3.Transfer.start, S3.planRanges, taskAmount,
      Function.comp_def] using tiled
  constructor
  · exact List.length_replicate
  · intro task member
    rcases List.mem_map.1 member with ⟨range, planned, rfl⟩
    exact S3.bounds_of_mem_rangesFrom planned
  · omega
  · exact Or.inl (by omega)

end Accounted

/-- A received range has the length that was asked for. -/
theorem requestRange_length (start stop : Nat) :
    Returns (fun asked reply => Fits (.s3 asked) reply)
      (fun bytes => bytes.length = stop - start + 1)
      (S3.requestRange etag start stop) := by
  rw [S3.requestRange]
  apply (returns_any _).bind
  intro stream _
  apply (returns_any _).bind
  intro bytes _
  split
  · trivial
  next length => exact not_not.1 length

/-- Requesting a range reports nothing. -/
theorem advance_request_returns
    {size reported index start stop : Nat}
    {transfer : S3.Transfer}
    (accounted : Accounted size reported transfer)
    (found : transfer.tasks[index]? = some (.waiting start stop)) :
    Returns (fun asked reply => Fits (.s3 asked) reply)
      (fun next =>
        Accounted size reported next ∧ next.weight < transfer.weight)
      (S3.advance etag transfer (.request index start stop)) := by
  have requested :
      Returns (fun asked reply => Fits (.s3 asked) reply)
        (fun outcome =>
          ∀ bytes : Bytes, outcome = .ok bytes →
            bytes.length = stop - start + 1)
        ((S3.requestRange etag start stop).attempt :
          S3.Run (Except ObjectStoreError Bytes)) := by
    apply (requestRange_length start stop).attempt
    · intro bytes length other same
      cases same
      exact length
    · intro error bytes impossible
      cases impossible
  rw [S3.advance]
  apply requested.bind
  intro outcome length
  cases outcome with
  | ok bytes =>
      constructor
      · exact accounted.received found (length bytes rfl)
      · have tasks :=
          S3.sum_map_set S3.Task.weight found (.received start stop bytes)
        simp only [S3.Transfer.weight, S3.Task.weight] at tasks ⊢
        omega
  | error error =>
      constructor
      · exact accounted.failed found accounted.file error
      · have weight :=
          S3.Transfer.weight_finish found transfer.file (.error error)
        simp only [S3.Task.weight] at weight
        omega

/-- A move reports what it has written. -/
theorem keeps_advance
    {post : Except Stop S3.Transfer → Ledger → Prop}
    {size reported : Nat}
    {transfer : S3.Transfer}
    {move : S3.Move}
    (accounted : Accounted size reported transfer)
    (possible : move.Possible transfer)
    (ok :
      ∀ next more, Accounted size (reported + more) next →
        next.weight < transfer.weight →
          post (.ok next) { ledger with reported := ledger.reported + more })
    (fails :
      ∀ error amount, reported + amount ≤ size →
        post (.error (.error error))
          { ledger with abandoned := ledger.abandoned + amount }) :
    Keeps post (advance etag transfer move) ledger := by
  have fails' (error : ObjectStoreError) :
      post (.error (.error error)) ledger :=
    fails error 0 (by have := accounted.bounded; omega)
  cases move with
  | request index start stop =>
      apply keeps_store (S3.issues_advance _ _ _)
        (advance_request_returns accounted possible)
      · intro next kept
        exact ok next 0 kept.1 kept.2
      · exact fails'
  | write index start bytes =>
      rcases possible with ⟨stop, found⟩
      apply Books.bind
      intro reply fits
      cases reply with
      | ok done =>
          apply Books.bind
          apply keeps_report
          apply ok
          · exact accounted.written found
          · have weight :=
              S3.Transfer.weight_finish found
                (S3.writeAt transfer.file start bytes) (.ok ())
            simp only [S3.Task.weight] at weight
            omega
      | error count =>
          have bounds : start + bytes.length ≤ size :=
            accounted.inside _ (List.mem_of_getElem? found)
          have shorter : (bytes.take count).length ≤ bytes.length :=
            List.length_take_le' _ _
          rw [← accounted.file] at bounds
          apply ok _ 0
          · apply accounted.failed found
            exact (S3.writeAt_length (by omega)).trans accounted.file
          · have weight :=
              S3.Transfer.weight_finish found
                (S3.writeAt transfer.file start (bytes.take count))
                (.error .other)
            simp only [S3.Task.weight] at weight
            omega
  | join outcome =>
      rcases possible with ⟨rest, pending⟩
      cases outcome with
      | ok done =>
          apply ok _ 0
          · exact accounted.joined pending
          · simp [S3.Transfer.weight, pending]
      | error error =>
          intro reply fits
          apply fails
          exact accounted.bounded

/-- However the moves are ordered, each range is reported once. -/
theorem keeps_transferAll
    {post : Except Stop S3.Transfer → Ledger → Prop}
    {size reported count : Nat}
    {transfer : S3.Transfer}
    (accounted : Accounted size reported transfer)
    (enough : transfer.weight ≤ count)
    (ok :
      ∀ last : S3.Transfer, last.file.length = size →
        post (.ok last)
          { ledger with reported := ledger.reported + (size - reported) })
    (fails :
      ∀ error more amount, reported + more + amount ≤ size →
        post (.error (.error error))
          { ledger with
            reported := ledger.reported + more
            abandoned := ledger.abandoned + amount }) :
    Keeps post (transferAll etag count transfer) ledger := by
  induction count generalizing transfer reported ledger with
  | zero =>
      have stuck : transfer.moves = [] := by
        rw [List.eq_nil_iff_forall_not_mem]
        intro move member
        have heavy := (S3.Move.possible_of_mem member).weight_pos
        omega
      have whole := ok transfer accounted.file
      rw [accounted.reported_eq stuck, Nat.sub_self] at whole
      exact whole
  | succ count hypothesis =>
      rw [transferAll]
      cases possible : transfer.moves with
      | nil =>
          have whole := ok transfer accounted.file
          rw [accounted.reported_eq possible, Nat.sub_self] at whole
          exact whole
      | cons first others =>
          apply Books.bind
          intro choice fits
          have member :
              (first :: others).getD choice first ∈ transfer.moves := by
            rw [possible, List.getD_eq_getElem?_getD]
            cases chosen : (first :: others)[choice]? with
            | none => exact List.mem_cons_self
            | some move => exact List.mem_of_getElem? chosen
          apply Books.bind
          apply keeps_advance accounted (S3.Move.possible_of_mem member)
          · intro next more kept lighter
            apply hypothesis kept (by omega)
            · intro last length
              have whole := ok last length
              have bounded := kept.bounded
              have sum :
                  ledger.reported + (size - reported) =
                    ledger.reported + more + (size - (reported + more)) := by
                omega
              rw [sum] at whole
              exact whole
            · intro error later amount bounded
              have failed :=
                fails error (more + later) amount (by omega)
              rw [← Nat.add_assoc] at failed
              exact failed
          · intro error amount bounded
            exact fails error 0 amount bounded

/-! ## Whole downloads -/

theorem keeps_downloadMultipart
    {post : Except Stop Bytes → Ledger → Prop}
    (size : Nat)
    (ok :
      ∀ content : Bytes, content.length = size →
        post (.ok content)
          { ledger with reported := ledger.reported + size })
    (fails :
      ∀ error more amount, more + amount ≤ size →
        post (.error (.error error))
          { ledger with
            reported := ledger.reported + more
            abandoned := ledger.abandoned + amount }) :
    Keeps post (downloadMultipart size etag) ledger := by
  have fails' (error : ObjectStoreError) :
      post (.error (.error error)) ledger :=
    fails error 0 0 (by omega)
  apply Books.bind
  apply keeps_fileStep _ _ fails'
  apply Books.bind
  apply keeps_fileStep _ _ fails'
  apply Books.bind
  apply keeps_transferAll (accounted_start size)
    (S3.Transfer.weight_start size).le
  · intro last length
    apply Books.bind
    apply keeps_fileStep
    · exact ok last.file length
    · intro error
      exact fails error size 0 (by omega)
  · intro error more amount bounded
    exact fails error more amount (by omega)

/-- The size of an object is that of an `i64`. -/
theorem head_small :
    Returns (fun asked reply => Fits (.s3 asked) reply)
      (fun found => found.size < 2 ^ 63)
      S3.head := by
  intro reply fits
  apply returns_ofExcept
  intro found answered
  cases reply with
  | error error => cases answered
  | ok output =>
      rcases output with ⟨length, modified, tag⟩
      cases length with
      | none => cases answered
      | some length =>
          cases modified with
          | none => cases answered
          | some instant =>
              cases answered
              have small := fits length rfl
              show length.toNat < 2 ^ 63
              omega

theorem keeps_downloadTemp
    {post : Except Stop Bytes → Ledger → Prop}
    (ok :
      ∀ content : Bytes, content.length < 2 ^ 63 →
        post (.ok content)
          { ledger with reported := ledger.reported + content.length })
    (fails :
      ∀ error more amount, more + amount < 2 ^ 63 →
        post (.error (.error error))
          { ledger with
            reported := ledger.reported + more
            abandoned := ledger.abandoned + amount }) :
    Keeps post downloadTemp ledger := by
  have asked :
      Issues (fun _ _ => True) S3.Call.Elsewhere S3.head :=
    ⟨fun _ => nofun, fun _ _ => issues_ofExcept _⟩
  have fails' (error : ObjectStoreError) :
      post (.error (.error error)) ledger :=
    fails error 0 0 (by omega)
  apply Books.bind
  apply keeps_store asked head_small _ fails'
  intro found small
  apply Books.bind
  apply keeps_fileStep _ _ fails'
  show Keeps post (if _ then _ else if _ then _ else _) ledger
  split
  · exact ok [] (by decide)
  split
  · apply keeps_downloadSingle ok
    intro error more bounded
    exact fails error more 0 bounded
  · apply keeps_downloadMultipart
    · intro content length
      have whole := ok content (by omega)
      rw [length] at whole
      exact whole
    · intro error more amount bounded
      exact fails error more amount (by omega)

theorem keeps_headThenDownload
    {post : Except Stop Unit → Ledger → Prop}
    (ok :
      ∀ size, size < 2 ^ 63 →
        post (.ok ())
          { ledger with
            reported := ledger.reported + size
            moved := some size })
    (fails :
      ∀ error more amount, more + amount < 2 ^ 63 →
        post (.error (.error error))
          { ledger with
            reported := ledger.reported + more
            abandoned := ledger.abandoned + amount }) :
    Keeps post headThenDownload ledger := by
  apply Books.bind
  apply keeps_downloadTemp
  · intro content small reply fits
    cases reply with
    | ok done => exact ok content.length small
    | error error => exact fails .other content.length 0 small
  · exact fails

/-- What is known of a transfer when it is over. -/
def Settled {ε : Type} (alive : ε → Prop) : Except ε α → Ledger → Prop
  | .ok _, ledger =>
      ledger.reported + ledger.abandoned < 2 ^ 64 ∧
        (ledger.reported = 0 ∧ ledger.abandoned = 0 ∧ ledger.before = 0 ∨
          ∃ size, ledger.moved = some size ∧
            ledger.reported = ledger.before + size)
  | .error error, ledger =>
      alive error ∧ ledger.reported + ledger.abandoned < 2 ^ 64

/-- A download that is tried again has reported what was there before. -/
theorem keeps_getToFile (hasParent : Bool) :
    Keeps (Settled (· ≠ .panic)) (getToFile hasParent) {} := by
  have second
      {first : Ledger}
      (bounded : first.reported + first.abandoned < 2 ^ 63) :
      Keeps (Settled (· ≠ .panic)) headThenDownload
        { first with before := first.reported } := by
    apply keeps_headThenDownload
    · intro size small
      constructor
      · show first.reported + size + first.abandoned < 2 ^ 64
        omega
      · exact Or.inr ⟨size, rfl, rfl⟩
    · intro error more amount small
      constructor
      · exact nofun
      · show first.reported + more + (first.abandoned + amount) < 2 ^ 64
        omega
  rw [getToFile]
  split
  · apply Books.bind
    apply Books.attempt
    apply keeps_headThenDownload
    · intro size small
      constructor
      · show 0 + size + 0 < 2 ^ 64
        omega
      · exact Or.inr ⟨size, rfl, rfl⟩
    · intro error more amount small
      have bounded : 0 + more + (0 + amount) < 2 ^ 64 := by omega
      cases error with
      | preconditionFailed key =>
          intro reply fits
          exact second (by simpa using small)
      | _ => exact ⟨nofun, bounded⟩
  · exact ⟨nofun, by decide⟩

/-! ## Uploads -/

theorem ofUpload_bind
    (program : UploadGuard.Run α)
    (next : α → UploadGuard.Run β) :
    ofUpload (program >>= next) =
      ofUpload program >>= fun value => ofUpload (next value) := by
  induction program with
  | ready value => rfl
  | panic => rfl
  | await asked rest hypothesis =>
      apply congrArg (Prog.call (Noted.call (Request.upload asked)))
      funext reply
      calc
        (announce asked reply >>= fun _ => ofUpload (rest reply >>= next)) =
            announce asked reply >>= fun _ =>
              ofUpload (rest reply) >>= fun value =>
                ofUpload (next value) := by
          rw [hypothesis reply]
        _ =
            (announce asked reply >>= fun _ => ofUpload (rest reply)) >>=
              fun value => ofUpload (next value) :=
          (bind_assoc _ _ _).symm
  | acquire guard rest hypothesis => exact hypothesis
  | disarm rest hypothesis => exact hypothesis
  | release rest hypothesis => exact hypothesis

theorem sum_eraseIdx
    {tasks : List UploadGuard.PartTask}
    {place : Nat}
    {task : UploadGuard.PartTask}
    (found : tasks[place]? = some task) :
    (tasks.map partAmount).sum =
      partAmount task + ((tasks.eraseIdx place).map partAmount).sum := by
  rcases List.getElem?_eq_some_iff.1 found with ⟨inside, rfl⟩
  have moved := (List.getElem_cons_eraseIdx_perm inside).map partAmount
  rw [← moved.sum_eq, List.map_cons, List.sum_cons]

/-- The tasks of an upload report their parts, each when it succeeds. -/
theorem keeps_joinTasks
    {post :
      Except Stop
        (Except ObjectStoreError (List Multipart.CompletedPart)) →
        Ledger → Prop}
    {count : Nat}
    {tasks : List UploadGuard.PartTask}
    {completed : List Multipart.CompletedPart}
    (enough : tasks.length ≤ count)
    (ok :
      ∀ parts,
        post (.ok (.ok parts))
          { ledger with
            reported :=
              ledger.reported + (tasks.map partAmount).sum })
    (fails :
      ∀ error more amount, more + amount ≤ (tasks.map partAmount).sum →
        post (.ok (.error error))
          { ledger with
            reported := ledger.reported + more
            abandoned := ledger.abandoned + amount }) :
    Keeps post (ofUpload (UploadGuard.joinTasks count tasks completed))
      ledger := by
  induction count generalizing tasks completed ledger with
  | zero =>
      have none := List.length_eq_zero_iff.1 (Nat.le_zero.1 enough)
      subst none
      exact ok _
  | succ count hypothesis =>
      rintro ⟨place, ending⟩ fits
      show Keeps post
        (announce (.joinNext tasks) (place, ending) >>= fun _ =>
          ofUpload _)
        ledger
      rw [announce]
      cases found : tasks[place % tasks.length]? with
      | none =>
          have empty : tasks = [] := by
            by_contra filled
            have inside :=
              Nat.mod_lt place (List.length_pos_iff.2 filled)
            exact absurd (List.getElem?_eq_none_iff.1 found) (by omega)
          subst empty
          exact ok _
      | some task =>
          have sum := sum_eraseIdx found
          cases ended : task.finish ending with
          | error error =>
              simp only [found, ended]
              intro reply fits
              exact fails error 0 _ (by omega)
          | ok part =>
              simp only [found, ended]
              apply Books.bind
              apply keeps_report
              have inside := (List.getElem?_eq_some_iff.1 found).1
              apply hypothesis
              · rw [List.length_eraseIdx_of_lt inside]
                omega
              · intro parts
                have whole := ok parts
                rw [sum, ← Nat.add_assoc] at whole
                exact whole
              · intro error more amount bounded
                have failed :=
                  fails error (partAmount task + more) amount (by omega)
                rw [← Nat.add_assoc] at failed
                exact failed

/-- The tasks of an upload from a file. -/
def fileTasks
    (guard : UploadGuard.MultipartUploadGuard)
    (parts : List Multipart.UploadPart) : List UploadGuard.PartTask :=
  parts.zipIdx.map fun entry =>
    { bucket := guard.bucket
      key := guard.key
      uploadId := guard.uploadId
      partNumber := entry.2 + 1
      source := .file entry.1 }

theorem uploadPartsFromFile_eq
    (guard : UploadGuard.MultipartUploadGuard)
    {parts : List Multipart.UploadPart}
    (few : parts.length ≤ Multipart.s3MaxParts.toNat) :
    UploadGuard.uploadPartsFromFile guard parts =
      UploadGuard.joinCompletedParts (fileTasks guard parts) := by
  have cap : Multipart.s3MaxParts.toNat = 10000 := rfl
  have spawned :
      (parts.zipIdx.mapM fun entry => do
        let partNumber ←
          (Multipart.partNumberFor entry.2).mapError Multipart.Stop.panic
        let source ← (.ok (.file entry.1) :
          Except Multipart.Stop UploadGuard.PartSource)
        return ({
          bucket := guard.bucket
          key := guard.key
          uploadId := guard.uploadId
          partNumber := partNumber
          source := source } : UploadGuard.PartTask)) =
        .ok (fileTasks guard parts) := by
    rw [fileTasks, Arrivals.mapM_eq_ok, List.forall₂_map_right_iff,
      List.forall₂_same]
    intro entry member
    have inside := List.snd_lt_of_mem_zipIdx member
    rw [Multipart.partNumberFor, if_pos (by omega)]
    rfl
  rw [UploadGuard.uploadPartsFromFile, UploadGuard.uploadParts]
  exact congrArg
    (fun tasks =>
      UploadGuard.orStop tasks UploadGuard.joinCompletedParts) spawned

theorem sum_fileTasks
    (guard : UploadGuard.MultipartUploadGuard)
    (parts : List Multipart.UploadPart) :
    ((fileTasks guard parts).map partAmount).sum =
      (parts.map fun part => part.length.toNat).sum := by
  rw [fileTasks, List.map_map]
  have forgotten :
      parts.zipIdx.map
          (fun entry : Multipart.UploadPart × Nat =>
            entry.1.length.toNat) =
        (parts.zipIdx.map Prod.fst).map fun part => part.length.toNat := by
    rw [List.map_map]
    rfl
  rw [List.zipIdx_map_fst] at forgotten
  exact congrArg List.sum forgotten

theorem exists_plan [Target]
    {length : Nat}
    (size : 0 < length ∧ length < 2 ^ 63) :
    ∃ parts,
      Multipart.planUploadParts (UInt64.ofNat length)
          UploadGuard.multipartPutPartSize Multipart.s3MaxParts =
        .ok parts ∧
      Multipart.Planned length Multipart.s3MaxParts.toNat parts := by
  have same : (UInt64.ofNat length).toNat = length := by
    rw [UInt64.toNat_ofNat', Nat.mod_eq_of_lt (by omega)]
  have fits :
      ∃ parts,
        Multipart.planUploadParts (UInt64.ofNat length)
            UploadGuard.multipartPutPartSize Multipart.s3MaxParts =
          .ok parts ∧
        Multipart.Planned (UInt64.ofNat length).toNat
          Multipart.s3MaxParts.toNat parts := by
    apply (Multipart.plan_iff _ _ _).2
    · exact Multipart.fits_of_cap (by decide) (by decide)
    · rw [same]
      exact size
    · decide
    · decide
  rw [same] at fits
  exact fits

theorem keeps_finishMultipartUpload
    {post : Except Stop (Except ObjectStoreError Unit) → Ledger → Prop}
    (guard : UploadGuard.MultipartUploadGuard)
    (parts : Except ObjectStoreError (List Multipart.CompletedPart))
    (ok : ∀ done, parts = .ok done → post (.ok (.ok ())) ledger)
    (fails : ∀ error, post (.ok (.error error)) ledger) :
    Keeps post (ofUpload (UploadGuard.finishMultipartUpload guard parts))
      ledger := by
  cases parts with
  | ok parts =>
      intro reply fits
      cases reply with
      | ok done => exact ok parts rfl
      | error error => exact fails error
  | error error =>
      intro reply fits
      exact fails error

/-- A multipart upload that succeeds has reported all of the file. -/
theorem keeps_multipartPutPath [Target]
    {post : Except Stop (Except ObjectStoreError Unit) → Ledger → Prop}
    (bucket key : Text)
    {length : Nat}
    (size : 0 < length ∧ length < 2 ^ 63)
    (ok :
      post (.ok (.ok ()))
        { ledger with reported := ledger.reported + length })
    (fails :
      ∀ error more amount, more + amount ≤ length →
        post (.ok (.error error))
          { ledger with
            reported := ledger.reported + more
            abandoned := ledger.abandoned + amount }) :
    Keeps post
      (ofUpload
        (UploadGuard.multipartPutPath bucket key (UInt64.ofNat length) {}))
      ledger := by
  rcases exists_plan size with ⟨parts, plan, planned⟩
  rw [UploadGuard.multipartPutPath, UploadGuard.multipartUpload, plan,
    ofUpload_bind]
  apply Books.bind
  intro reply fits
  have fails' (error : ObjectStoreError) :
      post (.ok (.error error)) ledger :=
    fails error 0 0 (by omega)
  cases reply with
  | error error => exact fails' error
  | ok uploadId =>
      cases uploadId with
      | none => exact fails' .other
      | some uploadId =>
          show Keeps post
            (ofUpload
              (.await .intoStd (fun _ =>
                UploadGuard.uploadPartsFromFile ⟨bucket, key, uploadId⟩
                  parts) >>= fun result =>
                UploadGuard.finishMultipartUpload ⟨bucket, key, uploadId⟩
                  result)) ledger
          rw [ofUpload_bind]
          apply Books.bind
          intro reply fits
          show Keeps _
            (ofUpload
              (UploadGuard.uploadPartsFromFile ⟨bucket, key, uploadId⟩
                parts)) ledger
          rw [uploadPartsFromFile_eq _ planned.few]
          have sum := sum_fileTasks ⟨bucket, key, uploadId⟩ parts
          rw [planned.sum] at sum
          apply keeps_joinTasks le_rfl
          · intro completed
            rw [sum]
            apply keeps_finishMultipartUpload
            · intro done same
              exact ok
            · intro error
              exact fails error length 0 (by omega)
          · intro error more amount bounded
            rw [sum] at bounded
            apply keeps_finishMultipartUpload
            · intro done same
              cases same
            · intro failed
              exact fails failed more amount bounded

theorem keeps_locally
    {post : Except Stop α → Ledger → Prop}
    (outcome : Except Unit α)
    (ok : ∀ value, outcome = .ok value → post (.ok value) ledger)
    (fails : ∀ error, post (.error (.error error)) ledger) :
    Keeps post (locally outcome) ledger := by
  cases outcome with
  | ok value => exact ok value rfl
  | error error => exact fails .other

/-- A transfer that has failed before it could report anything. -/
theorem settled_early
    (error : ObjectStoreError)
    (moved : Option Nat) :
    Settled (α := α) (· ≠ Stop.panic) (.error (.error error))
      { moved := moved } := by
  constructor
  · exact nofun
  · show 0 + 0 < 2 ^ 64
    decide

/-- An upload that succeeds has reported the whole file, once. -/
theorem keeps_putPath [Target] (bucket key path : Text) :
    Keeps (Settled (· ≠ .panic)) (putPath bucket key path) {} := by
  apply Books.bind
  intro opened fits
  apply Books.bind
  apply keeps_locally
  case fails => exact fun error => settled_early error none
  intro done same
  apply Books.bind
  intro answered fits
  apply Books.bind
  cases answered with
  | error failed => exact ⟨nofun, Nat.two_pow_pos 64⟩
  | ok bodyLen =>
      have small : bodyLen < 2 ^ 63 := fits
      show Keeps _ (if _ then _ else _) { moved := some bodyLen }
      split
      next large =>
          have positive : 0 < bodyLen := by
            rw [multipartPutThreshold] at large
            omega
          apply Books.bind
          apply keeps_multipartPutPath _ _ ⟨positive, small⟩
          · constructor
            · show 0 + bodyLen + 0 < 2 ^ 64
              omega
            · exact Or.inr ⟨bodyLen, rfl, rfl⟩
          · intro error more amount bounded
            constructor
            · exact nofun
            · show 0 + more + (0 + amount) < 2 ^ 64
              omega
      next =>
          apply Books.bind
          intro built fits
          apply Books.bind
          apply keeps_locally
          case fails =>
            exact fun error => settled_early error (some bodyLen)
          intro done same
          apply Books.bind
          intro put fits
          cases put with
          | error error => exact ⟨nofun, Nat.two_pow_pos 64⟩
          | ok done =>
              apply keeps_report
              constructor
              · show 0 + bodyLen + 0 < 2 ^ 64
                omega
              · exact Or.inr ⟨bodyLen, rfl, rfl⟩

theorem settled_withCause
    {outcome : Except Stop α}
    (settled : Settled (· ≠ .panic) outcome ledger) :
    Settled (· ≠ .panic) (outcome.mapError Agent.withCause) ledger := by
  cases outcome with
  | ok value => exact settled
  | error error =>
      cases error with
      | panic => exact absurd rfl settled.1
      | error error => exact ⟨nofun, settled.2⟩

theorem keeps_tryUpload [Target]
    (agent : Agent)
    (oid : LfsOid)
    (path : Text) :
    Keeps (Settled (· ≠ .panic)) (agent.tryUpload oid path) {} := by
  have asked :
      Issues (fun _ _ => True) S3.Call.Elsewhere S3.head :=
    ⟨fun _ => nofun, fun _ _ => issues_ofExcept _⟩
  apply Books.mapError
  apply Books.bind
  apply Books.attempt
  apply keeps_store asked head_small
  · intro found small
    exact ⟨by decide, Or.inl ⟨rfl, rfl, rfl⟩⟩
  · intro error
    cases error with
    | notFound key =>
        apply (keeps_putPath agent.bucket (agent.key oid) path).weaken
        intro outcome ledger settled
        exact settled_withCause settled
    | _ => exact ⟨nofun, by decide⟩

theorem keeps_tryDownload
    (agent : Agent)
    (oid : LfsOid) :
    Keeps (Settled (· ≠ .panic)) (agent.tryDownload oid) {} := by
  rcases agent with ⟨bucket, bucketPrefix, tmpDir⟩
  apply Books.bind
  intro created fits
  cases created with
  | error error => exact ⟨nofun, Nat.two_pow_pos 64⟩
  | ok done =>
      apply Books.bind
      apply Books.mapError
      apply (keeps_getToFile true).weaken
      intro outcome ledger settled
      have told := settled_withCause settled
      cases outcome with
      | error error => exact told
      | ok value =>
          cases tmpDir with
          | some directory => exact told
          | none => exact ⟨nofun, told.1⟩

end Ledger

end GitRemoteObjectStore.Lfs
