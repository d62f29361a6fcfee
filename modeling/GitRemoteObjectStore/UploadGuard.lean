import GitRemoteObjectStore.Library.Droppable
import GitRemoteObjectStore.Library.PercentEncoding
import GitRemoteObjectStore.Multipart

/-!
# The guard of a multipart upload

S3 keeps an upload that is neither completed nor aborted for ever.  A guard
owns the upload from the moment its id is known: completing the upload and
aborting it in line both disarm the guard, and wherever else the upload ends,
be it dropped at an await point, dropping the guard aborts it.

The parts are uploaded by tasks of their own, which do not know the guard.  A
task is what it asks the service for; how it ends is chosen by the reply to
`joinNext`, together with which of the tasks ends next.
-/

namespace GitRemoteObjectStore.UploadGuard

open Droppable DeltaFormat Multipart

/-! ## Requests -/

structure PutOpts where
  contentDisposition : Option Text := none
  userMetadata : List (Text × Text) := []

structure MultipartUploadGuard where
  bucket : Text
  key : Text
  uploadId : Text
deriving DecidableEq

/-- What a task uploads. -/
inductive PartSource where
  | body (body : Bytes)
  /-- The part of the file, which the task reads. -/
  | file (part : UploadPart)
  /-- A range of bytes, both ends included, of another object. -/
  | copy
      (copySource : Text)
      (first last : Nat)
      (ifMatch : Option Text)

structure PartTask where
  bucket : Text
  key : Text
  uploadId : Text
  partNumber : Nat
  source : PartSource

/-- How a task ends. -/
inductive TaskEnd where
  /-- The semaphore is closed. -/
  | closed
  /-- The part of the file cannot be read. -/
  | unread
  /-- The service answers, with the entity tag of the part if it has one. -/
  | responded (response : Except ObjectStoreError (Option Text))
  | panicked

inductive Call where
  | createMultipartUpload
      (bucket key : Text)
      (contentDisposition : Option Text)
      (metadata : List (Text × Text))
  /-- Turn the file into one that tasks can share. -/
  | intoStd
  | joinNext (tasks : List PartTask)
  | completeMultipartUpload
      (bucket key uploadId : Text)
      (parts : List CompletedPart)
  | abortMultipartUpload (bucket key uploadId : Text)

abbrev Reply : Call → Type
  | .createMultipartUpload _ _ _ _ => Except ObjectStoreError (Option Text)
  | .intoStd => Unit
  | .joinNext _ => Nat × TaskEnd
  | .completeMultipartUpload _ _ _ _ => Except ObjectStoreError Unit
  | .abortMultipartUpload _ _ _ => Except ObjectStoreError Unit

abbrev Run (α : Type) : Type :=
  Future Call Reply MultipartUploadGuard α

/-- Every byte but letters, digits and these is escaped. -/
def copySourcePlain (byte : UInt8) : Bool :=
  (Char.ofNat byte.toNat).isAlphanum ∨
    byte ∈ [0x2f, 0x2e, 0x2d, 0x5f, 0x7e]

def encodeCopySource (bucket key : Text) : Text :=
  encode bucket ++ '/' :: encode key
where
  encode (text : Text) : Text :=
    (PercentEncoding.utf8 text).flatMap fun byte =>
      if copySourcePlain byte then [Char.ofNat byte.toNat]
      else
        ['%', Nat.digitChar (byte.toNat / 16) |>.toUpper,
          Nat.digitChar (byte.toNat % 16) |>.toUpper]

/-! ## Tasks -/

/-- What a task returns. -/
def PartTask.finish
    (task : PartTask) : TaskEnd → Except ObjectStoreError CompletedPart
  | .closed => .error .other
  | .unread => .error .other
  | .responded (.error error) => .error error
  | .responded (.ok none) => .error .other
  | .responded (.ok (some eTag)) =>
      .ok { partNumber := task.partNumber, eTag := eTag }
  | .panicked => .error .other

def sortByPartNumber (completed : List CompletedPart) : List CompletedPart :=
  completed.mergeSort fun left right => left.partNumber ≤ right.partNumber

/-- Join at most `count` tasks, until one has failed or there are none. -/
def joinTasks :
    Nat → List PartTask → List CompletedPart →
      Run (Except ObjectStoreError (List CompletedPart))
  | 0, _, completed => .ready (.ok (sortByPartNumber completed))
  | count + 1, tasks, completed =>
      .await (.joinNext tasks) fun (place, ending) =>
        match tasks[place % tasks.length]? with
        | none => .ready (.ok (sortByPartNumber completed))
        | some task =>
            match task.finish ending with
            | .error error => .ready (.error error)
            | .ok part =>
                joinTasks count (tasks.eraseIdx (place % tasks.length))
                  (completed ++ [part])

def joinCompletedParts
    (tasks : List PartTask) :
    Run (Except ObjectStoreError (List CompletedPart)) :=
  joinTasks tasks.length tasks []

/-- The future that a panic, an error or a value stands for. -/
def orStop {α : Type} :
    Except Stop α →
      (α → Run (Except ObjectStoreError (List CompletedPart))) →
      Run (Except ObjectStoreError (List CompletedPart))
  | .ok value, next => next value
  | .error (.panic _), _ => .panic
  | .error (.error error), _ => .ready (.error error)

/-- One task a part, and then join them. -/
def uploadParts
    (guard : MultipartUploadGuard)
    (parts : List UploadPart)
    (makeSource : UploadPart → Except Stop PartSource) :
    Run (Except ObjectStoreError (List CompletedPart)) :=
  let spawned : Except Stop (List PartTask) :=
    parts.zipIdx.mapM fun (part, idx) => do
      let partNumber ← (partNumberFor idx).mapError .panic
      let source ← makeSource part
      return {
        bucket := guard.bucket
        key := guard.key
        uploadId := guard.uploadId
        partNumber := partNumber
        source := source }
  orStop spawned joinCompletedParts

/-- The bytes of a part; slicing past the end is a panic. -/
def sliceBytesPart [Target]
    (body : Bytes)
    (part : UploadPart) : Except Stop Bytes :=
  if part.offset.toNat ≤ usizeMax ∧ part.length.toNat ≤ usizeMax then
    match checkedAdd part.offset.toNat part.length.toNat with
    | none => .error (.panic .overflow)
    | some stop =>
        if stop ≤ body.length then .ok (slicePart body part)
        else .error (.panic .outOfBounds)
  else .error (.error .other)

def uploadPartsWithBodies
    (guard : MultipartUploadGuard)
    (parts : List UploadPart)
    (makeBody : UploadPart → Except Stop Bytes) :
    Run (Except ObjectStoreError (List CompletedPart)) :=
  uploadParts guard parts fun part => (makeBody part).map .body

def uploadPartsFromFile
    (guard : MultipartUploadGuard)
    (parts : List UploadPart) :
    Run (Except ObjectStoreError (List CompletedPart)) :=
  uploadParts guard parts fun part => .ok (.file part)

/-- The last byte of a part, `offset + length - 1` on `u64`. -/
def lastByte (part : UploadPart) : Except Stop Nat :=
  let stop := part.offset.toNat + part.length.toNat
  if 0 < stop ∧ stop < 2 ^ 64 then .ok (stop - 1)
  else .error (.panic .overflow)

def uploadPartsViaCopy
    (guard : MultipartUploadGuard)
    (copySource : Text)
    (srcEtag : Option Text)
    (parts : List UploadPart) :
    Run (Except ObjectStoreError (List CompletedPart)) :=
  uploadParts guard parts fun part => do
    let last ← lastByte part
    return .copy copySource part.offset.toNat last srcEtag

/-! ## Uploads -/

def startMultipartUpload
    (bucket key : Text)
    (opts : PutOpts) :
    Run (Except ObjectStoreError MultipartUploadGuard) :=
  .await
    (.createMultipartUpload bucket key opts.contentDisposition
      opts.userMetadata)
    fun
    | .error error => .ready (.error error)
    | .ok none => .ready (.error .other)
    | .ok (some uploadId) =>
        .acquire ⟨bucket, key, uploadId⟩
          (.ready (.ok ⟨bucket, key, uploadId⟩))

/-- The guard is dropped when the function returns. -/
def finishMultipartUpload
    (guard : MultipartUploadGuard)
    (parts : Except ObjectStoreError (List CompletedPart)) :
    Run (Except ObjectStoreError Unit) :=
  match parts with
  | .ok parts =>
      .await
        (.completeMultipartUpload guard.bucket guard.key guard.uploadId
          parts)
        fun
        | .error error => .release (.ready (.error error))
        | .ok () => .disarm (.release (.ready (.ok ())))
  | .error error =>
      .await (.abortMultipartUpload guard.bucket guard.key guard.uploadId)
        -- That the abort has failed is only logged.
        fun _ => .disarm (.release (.ready (.error error)))

def multipartPutPartSize : UInt64 := 16 * 1024 * 1024

/-- Plan, start, upload the parts, finish. -/
def multipartUpload [Target]
    (bucket key : Text)
    (size : UInt64)
    (opts : PutOpts)
    (upload :
      MultipartUploadGuard → List UploadPart →
        Run (Except ObjectStoreError (List CompletedPart))) :
    Run (Except ObjectStoreError Unit) :=
  match planUploadParts size multipartPutPartSize s3MaxParts with
  | .error _ => .panic
  | .ok parts =>
      startMultipartUpload bucket key opts >>= fun
        | .error error => .ready (.error error)
        | .ok guard =>
            upload guard parts >>= fun result =>
              finishMultipartUpload guard result

def multipartPutBytes [Target]
    (bucket key : Text)
    (body : Bytes)
    (size : UInt64)
    (opts : PutOpts) : Run (Except ObjectStoreError Unit) :=
  multipartUpload bucket key size opts fun guard parts =>
    uploadPartsWithBodies guard parts (sliceBytesPart body)

def multipartPutPath [Target]
    (bucket key : Text)
    (size : UInt64)
    (opts : PutOpts) : Run (Except ObjectStoreError Unit) :=
  multipartUpload bucket key size opts fun guard parts =>
    .await .intoStd fun _ => uploadPartsFromFile guard parts

def multipartCopy [Target]
    (bucket src dst : Text)
    (size : UInt64)
    (srcEtag : Option Text) : Run (Except ObjectStoreError Unit) :=
  multipartUpload bucket dst size {} fun guard parts =>
    uploadPartsViaCopy guard (encodeCopySource bucket src) srcEtag parts

/-- The uploads a store makes. -/
inductive Upload where
  | bytes (bucket key : Text) (body : Bytes) (size : UInt64) (opts : PutOpts)
  | path (bucket key : Text) (size : UInt64) (opts : PutOpts)
  | copy
      (bucket src dst : Text)
      (size : UInt64)
      (srcEtag : Option Text)

def Upload.future [Target] : Upload → Run (Except ObjectStoreError Unit)
  | .bytes bucket key body size opts =>
      multipartPutBytes bucket key body size opts
  | .path bucket key size opts => multipartPutPath bucket key size opts
  | .copy bucket src dst size srcEtag =>
      multipartCopy bucket src dst size srcEtag

/-! ## What becomes of an upload -/

abbrev Seen : Type :=
  Event Call Reply MultipartUploadGuard

variable {guard : MultipartUploadGuard} {history : List Seen} {event : Seen}

/-- The service answers with the id of a new upload. -/
def Creates (guard : MultipartUploadGuard) : Seen → Prop
  | .answered (.createMultipartUpload bucket key _ _)
      (.ok (some uploadId)) => ⟨bucket, key, uploadId⟩ = guard
  | _ => False

/-- The service answers that the upload is complete. -/
def Completes (guard : MultipartUploadGuard) : Seen → Prop
  | .answered (.completeMultipartUpload bucket key uploadId _) (.ok _) =>
      ⟨bucket, key, uploadId⟩ = guard
  | _ => False

/-- An abort of the upload is dispatched, in line or by the guard. -/
def Aborts (guard : MultipartUploadGuard) : Seen → Prop
  | .sent (.abortMultipartUpload bucket key uploadId) =>
      ⟨bucket, key, uploadId⟩ = guard
  | .fired dropped => dropped = guard
  | _ => False

/-- Every upload that was created is completed or aborted. -/
def NoOrphan (history : List Seen) : Prop :=
  ∀ guard, (∃ event ∈ history, Creates guard event) →
    ∃ event ∈ history, Completes guard event ∨ Aborts guard event

/-- Once a completion has been observed, no abort is dispatched. -/
def NoLateAbort (history : List Seen) : Prop :=
  history.Pairwise fun earlier later =>
    ∀ completed aborted, Completes completed earlier →
      ¬ Aborts aborted later

/-- Every guard that was dropped armed found a runtime. -/
def RuntimeAvailable (history : List Seen) : Prop :=
  ∀ guard, .stranded guard ∉ history

/-- What holds wherever an upload ends. -/
structure Settled (history : List Seen) : Prop where
  noLateAbort : NoLateAbort history
  resolved :
    ∀ guard, (∃ event ∈ history, Creates guard event) →
      (∃ event ∈ history, Completes guard event ∨ Aborts guard event) ∨
        .stranded guard ∈ history

/-! ## Before the completion -/

/-- No completion has been observed yet. -/
def Pending (history : List Seen) : Prop :=
  ∀ event ∈ history, ∀ guard, ¬ Completes guard event

theorem Pending.noLateAbort (pending : Pending history) :
    NoLateAbort history := by
  apply List.pairwise_of_forall_mem_list
  intro earlier present _ _ completed _ completes
  exact absurd completes (pending earlier present completed)

theorem Pending.noLateAbort_append
    (pending : Pending history)
    (event : Seen) :
    NoLateAbort (history ++ [event]) := by
  rw [NoLateAbort, List.pairwise_append]
  constructor
  · exact pending.noLateAbort
  constructor
  · exact List.pairwise_singleton _ _
  · intro earlier present _ _ completed _ completes
    exact absurd completes (pending earlier present completed)

theorem Pending.append
    (pending : Pending history)
    (other : ∀ guard, ¬ Completes guard event) :
    Pending (history ++ [event]) := by
  intro earlier present
  rcases List.mem_append.1 present with inside | last
  · exact pending earlier inside
  · rw [List.mem_singleton.1 last]
    exact other

/-- An upload that has been created is owned by an armed guard. -/
structure Owned
    (guard : MultipartUploadGuard)
    (state : State Call Reply MultipartUploadGuard) : Prop where
  held : state.held = [⟨guard, true⟩]
  pending : Pending state.history
  created :
    ∀ event ∈ state.history, ∀ other, Creates other event → other = guard

section Owned

variable
    {state : State Call Reply MultipartUploadGuard}
    {schedule : Schedule Call Reply MultipartUploadGuard}

theorem Owned.log
    (owned : Owned guard state)
    (event : Seen)
    (notCreated : ∀ other, ¬ Creates other event)
    (notCompleted : ∀ other, ¬ Completes other event) :
    Owned guard (state.log event) where
  held := owned.held
  pending := owned.pending.append notCompleted
  created := by
    intro earlier present other creates
    rcases List.mem_append.1 present with inside | last
    · exact owned.created earlier inside other creates
    · rw [List.mem_singleton.1 last] at creates
      exact absurd creates (notCreated other)

/-- An event that resolves the upload settles it. -/
theorem Owned.settled_append
    (owned : Owned guard state)
    (event : Seen)
    (notCreated : ∀ other, ¬ Creates other event)
    (resolves :
      Completes guard event ∨ Aborts guard event ∨
        event = .stranded guard) :
    Settled (state.history ++ [event]) where
  noLateAbort := owned.pending.noLateAbort_append event
  resolved := by
    rintro other ⟨earlier, present, creates⟩
    have last : event ∈ state.history ++ [event] := by simp
    rcases List.mem_append.1 present with inside | created
    · cases owned.created earlier inside other creates
      rcases resolves with completes | aborts | rfl
      · exact Or.inl ⟨event, last, Or.inl completes⟩
      · exact Or.inl ⟨event, last, Or.inr aborts⟩
      · exact Or.inr last
    · rw [List.mem_singleton.1 created] at creates
      exact absurd creates (notCreated other)

/-- An abort that was dispatched settles the upload. -/
theorem Owned.settled_of_aborts
    (owned : Owned guard state)
    (present : event ∈ state.history)
    (aborts : Aborts guard event) :
    Settled state.history where
  noLateAbort := owned.pending.noLateAbort
  resolved := by
    rintro other ⟨earlier, inside, creates⟩
    cases owned.created earlier inside other creates
    exact Or.inl ⟨event, present, Or.inr aborts⟩

theorem Owned.unwind_eq (owned : Owned guard state) :
    schedule.unwind state =
      state.history ++
        [if schedule.runtime state.history then .fired guard
          else .stranded guard] := by
  rw [Schedule.unwind, owned.held]
  rfl

/-- Dropping the guard settles the upload. -/
theorem Owned.settled_unwind
    (owned : Owned guard state)
    (schedule : Schedule Call Reply MultipartUploadGuard) :
    Settled (schedule.unwind state) := by
  rw [owned.unwind_eq]
  apply owned.settled_append
  · intro other creates
    split at creates <;> exact creates
  · split
    · exact Or.inr (Or.inl rfl)
    · exact Or.inr (Or.inr rfl)

theorem Owned.release_eq (owned : Owned guard state) :
    (schedule.release state).history = schedule.unwind state := by
  rw [owned.unwind_eq, Schedule.release, owned.held]
  rfl

/-! ## The parts -/

/-- The requests made while the parts are uploaded. -/
inductive PartCall : Call → Prop where
  | intoStd : PartCall .intoStd
  | joinNext (tasks : List PartTask) : PartCall (.joinNext tasks)

theorem kept_owned : Kept PartCall (Owned guard) where
  sent := by
    intro state request allowed owned
    cases allowed <;>
      exact owned.log _ (fun _ => id) (fun _ => id)
  answered := by
    intro state request reply allowed owned
    cases allowed <;>
      exact owned.log _ (fun _ => id) (fun _ => id)

theorem confined_joinTasks
    (count : Nat)
    (tasks : List PartTask)
    (completed : List CompletedPart) :
    Confined PartCall (joinTasks count tasks completed) := by
  induction count generalizing tasks completed with
  | zero => trivial
  | succ count hypothesis =>
      constructor
      · exact PartCall.joinNext tasks
      · rintro ⟨place, ending⟩
        dsimp only
        split
        · trivial
        next task _ =>
            split
            · trivial
            · exact hypothesis _ _

theorem confined_uploadParts
    (parts : List UploadPart)
    (makeSource : UploadPart → Except Stop PartSource) :
    Confined PartCall (uploadParts guard parts makeSource) := by
  rw [uploadParts]
  unfold orStop
  split
  · exact confined_joinTasks _ _ _
  · trivial
  · trivial

/-! ## From the creation to the end -/

theorem safe_finishMultipartUpload
    (parts : Except ObjectStoreError (List CompletedPart))
    (owned : Owned guard state) :
    Safe schedule Settled (fun _ state => Settled state.history)
      (finishMultipartUpload guard parts) state := by
  cases parts with
  | ok parts =>
      have asked :=
        owned.log
          (.sent
            (.completeMultipartUpload guard.bucket guard.key
              guard.uploadId parts))
          (fun _ => id) (fun _ => id)
      constructor
      · exact asked.settled_unwind schedule
      · rintro (error | ⟨⟩)
        · have refused :=
            asked.log
              (.answered
                (.completeMultipartUpload guard.bucket guard.key
                  guard.uploadId parts)
                (.error error))
              (fun _ => id) (fun _ => id)
          have settled := refused.settled_unwind schedule
          rw [← refused.release_eq] at settled
          exact settled
        · have settled :=
            asked.settled_append
              (.answered
                (.completeMultipartUpload guard.bucket guard.key
                  guard.uploadId parts)
                (.ok ()))
              (fun _ => id) (Or.inl rfl)
          show Settled (schedule.release (State.disarm _)).history
          rw [Schedule.history_release_disarm]
          exact settled
  | error error =>
      have asked :=
        owned.log
          (.sent
            (.abortMultipartUpload guard.bucket guard.key
              guard.uploadId))
          (fun _ => id) (fun _ => id)
      constructor
      · exact asked.settled_unwind schedule
      · intro reply
        have answered :=
          asked.log
            (.answered
              (.abortMultipartUpload guard.bucket guard.key
                guard.uploadId)
              reply)
            (fun _ => id) (fun _ => id)
        show Settled (schedule.release (State.disarm _)).history
        rw [Schedule.history_release_disarm]
        have sent :
            .sent
                (.abortMultipartUpload guard.bucket guard.key
                  guard.uploadId) ∈
              (state.log
                (.sent
                  (.abortMultipartUpload guard.bucket guard.key
                    guard.uploadId))).history :=
          List.mem_concat_self
        exact answered.settled_of_aborts (List.mem_append_left _ sent) rfl

theorem settled_of_not_creates
    (notCreated : ∀ event ∈ history, ∀ guard, ¬ Creates guard event)
    (pending : Pending history) :
    Settled history where
  noLateAbort := pending.noLateAbort
  resolved := by
    rintro guard ⟨event, present, creates⟩
    exact absurd creates (notCreated event present guard)

/-- What holds once the creation has been answered. -/
def Started :
    Except ObjectStoreError MultipartUploadGuard →
      State Call Reply MultipartUploadGuard → Prop
  | .error _, state => Settled state.history
  | .ok guard, state => Owned guard state

theorem safe_startMultipartUpload
    (bucket key : Text)
    (opts : PutOpts) :
    Safe schedule Settled Started (startMultipartUpload bucket key opts)
      .initial := by
  constructor
  · apply settled_of_not_creates <;>
      simp [Pending, Schedule.unwind, State.initial, State.log, Creates,
        Completes]
  · rintro (error | ⟨⟩ | uploadId)
    · show Settled _
      apply settled_of_not_creates <;>
        simp [Pending, State.initial, State.log, Creates, Completes]
    · show Settled _
      apply settled_of_not_creates <;>
        simp [Pending, State.initial, State.log, Creates, Completes]
    · show Owned ⟨bucket, key, uploadId⟩ _
      constructor
      · rfl
      · simp [Pending, State.initial, State.log, State.acquire, Completes]
      · simp [State.initial, State.log, State.acquire, Creates]

/-- An upload whose parts leave the guard alone is settled. -/
theorem safe_multipartUpload [Target]
    {upload :
      MultipartUploadGuard → List UploadPart →
        Run (Except ObjectStoreError (List CompletedPart))}
    (confined : ∀ guard parts, Confined PartCall (upload guard parts))
    (bucket key : Text)
    (size : UInt64)
    (opts : PutOpts) :
    Safe schedule Settled (fun _ state => Settled state.history)
      (multipartUpload bucket key size opts upload) .initial := by
  rw [multipartUpload]
  split
  next =>
      apply settled_of_not_creates <;>
        simp [Pending, Schedule.unwind, State.initial]
  next parts _ =>
      apply Safe.bind
      apply (safe_startMultipartUpload bucket key opts).mono
      intro started state begun
      cases started with
      | error error => exact begun
      | ok guard =>
          apply Safe.bind
          have joined :=
            (confined guard parts).safe kept_owned
              (fun _ owned => owned.settled_unwind schedule) begun
          apply joined.mono
          intro result state owned
          exact safe_finishMultipartUpload result owned

end Owned

/-! ## Every upload -/

/-- The parts of an upload know nothing of its guard. -/
theorem Upload.safe [Target]
    (upload : Upload)
    (schedule : Schedule Call Reply MultipartUploadGuard) :
    Safe schedule Settled (fun _ state => Settled state.history)
      upload.future .initial := by
  cases upload with
  | bytes bucket key body size opts =>
      apply safe_multipartUpload
      intro guard parts
      exact confined_uploadParts parts _
  | path bucket key size opts =>
      apply safe_multipartUpload
      intro guard parts
      exact ⟨.intoStd, fun _ => confined_uploadParts parts _⟩
  | copy bucket src dst size srcEtag =>
      apply safe_multipartUpload
      intro guard parts
      exact confined_uploadParts parts _

/-- All that has happened when an upload has ended, wherever it ended. -/
def Upload.seen [Target]
    (upload : Upload)
    (schedule : Schedule Call Reply MultipartUploadGuard) : List Seen :=
  (schedule.run upload.future .initial).history

/--
An upload that was created is completed or aborted, provided that a guard
which is dropped finds a runtime, and nothing is aborted once it is known to
be complete.
-/
theorem Upload.noOrphan [Target]
    (upload : Upload)
    (schedule : Schedule Call Reply MultipartUploadGuard) :
    NoLateAbort (upload.seen schedule) ∧
      (RuntimeAvailable (upload.seen schedule) →
        NoOrphan (upload.seen schedule)) := by
  have settled : Settled (upload.seen schedule) :=
    (upload.safe schedule).history
  constructor
  · exact settled.noLateAbort
  · intro available guard created
    rcases settled.resolved guard created with resolved | stranded
    · exact resolved
    · exact absurd stranded (available guard)

/-! ## A dropped upload -/

section Dropped

attribute [local instance] wideTarget

/--
Of the tasks that are left the second ends, with its part, then the first,
without one; the future is dropped while the upload is aborted for it.
-/
def droppedSchedule : Schedule Call Reply MultipartUploadGuard where
  turn := fun _ request =>
    match request with
    | .createMultipartUpload _ _ _ _ => some (.ok (some ['i', 'd']))
    | .intoStd => some ()
    | .joinNext tasks =>
        if tasks.length = 3 then some (1, .responded (.ok (some ['e'])))
        else some (0, .responded (.error .other))
    | _ => none
  runtime := fun _ => true

/-- An object of two whole parts and half a part. -/
def droppedUpload : Upload :=
  .copy ['b'] ['k'] ['l'] (5 * 8 * 1024 * 1024) (some ['v'])

def droppedGuard : MultipartUploadGuard :=
  ⟨['b'], ['l'], ['i', 'd']⟩

/-- The task that copies the bytes from `first` to `last`. -/
def droppedTask (partNumber first last : Nat) : PartTask :=
  ⟨['b'], ['l'], ['i', 'd'], partNumber,
    .copy (encodeCopySource ['b'] ['k']) first last (some ['v'])⟩

def droppedTasks : List PartTask :=
  [droppedTask 1 0 16777215, droppedTask 2 16777216 33554431,
    droppedTask 3 33554432 41943039]

theorem plan_droppedUpload :
    planUploadParts (5 * 8 * 1024 * 1024) multipartPutPartSize s3MaxParts =
      .ok [⟨0, 16777216⟩, ⟨16777216, 16777216⟩, ⟨33554432, 8388608⟩] := by
  decide +kernel

theorem seen_droppedUpload :
    droppedUpload.seen droppedSchedule =
      [.sent (.createMultipartUpload ['b'] ['l'] none []),
        .answered (.createMultipartUpload ['b'] ['l'] none [])
          (.ok (some ['i', 'd'])),
        .sent (.joinNext droppedTasks),
        .answered (.joinNext droppedTasks)
          (1, .responded (.ok (some ['e']))),
        .sent (.joinNext (droppedTasks.eraseIdx 1)),
        .answered (.joinNext (droppedTasks.eraseIdx 1))
          (0, .responded (.error .other)),
        .sent (.abortMultipartUpload ['b'] ['l'] ['i', 'd']),
        .fired droppedGuard] := by
  rw [Upload.seen, droppedUpload, Upload.future, multipartCopy,
    multipartUpload, plan_droppedUpload]
  rfl

theorem noOrphan_dropped :
    NoOrphan (droppedUpload.seen droppedSchedule) ∧
      ∃ event ∈ droppedUpload.seen droppedSchedule,
        Aborts droppedGuard event := by
  have available :
      RuntimeAvailable (droppedUpload.seen droppedSchedule) := by
    intro guard
    rw [seen_droppedUpload]
    simp
  constructor
  · exact (Upload.noOrphan droppedUpload droppedSchedule).2 available
  · rw [seen_droppedUpload]
    exact ⟨.fired droppedGuard, by simp, rfl⟩

end Dropped

end GitRemoteObjectStore.UploadGuard
