import GitRemoteObjectStore.S3Download
import Mathlib.Data.Set.Basic

/-!
# Downloads are atomic

Whatever other clients do to an object while it is downloaded, a download
that succeeds leaves the whole body of one of its versions at the
destination, and one that fails leaves the destination alone.  A position of
a large file is right from the moment a range over it is written, in
whichever order that happens.
-/

namespace GitRemoteObjectStore.S3

open CallProgram Prog DeltaFormat

/-! ## Ranges -/

/-- No range reaches past the end. -/
theorem bounds_of_mem_rangesFrom
    {size chunkSize start : Nat}
    {range : Nat × Nat}
    (member : range ∈ rangesFrom size chunkSize start) :
    range.1 ≤ range.2 ∧ range.2 < size := by
  induction start using rangesFrom.induct size chunkSize with
  | case1 start more stop hypothesis =>
      rw [rangesFrom, if_pos more] at member
      rcases List.mem_cons.1 member with rfl | later
      · show start ≤ min _ _ ∧ min _ _ < size
        omega
      · exact hypothesis later
  | case2 start none =>
      rw [rangesFrom, if_neg none] at member
      simp at member

/-- The planned ranges tile the object, without gap or overlap. -/
theorem rangesFrom_tile
    {size chunkSize start : Nat}
    (positive : 0 < chunkSize)
    (within : start ≤ size) :
    ((rangesFrom size chunkSize start).flatMap fun range =>
        List.range' range.1 (range.2 - range.1 + 1)) =
      List.range' start (size - start) := by
  induction start using rangesFrom.induct size chunkSize with
  | case1 start more stop hypothesis =>
      have stops : stop = min (start + chunkSize - 1) (size - 1) := rfl
      rw [rangesFrom, if_pos more, List.flatMap_cons,
        hypothesis (by omega)]
      have total :
          size - start = (stop - start + 1) + (size - (stop + 1)) := by
        omega
      have next : stop + 1 = start + 1 * (stop - start + 1) := by omega
      rw [total, next]
      exact List.range'_append
  | case2 start none =>
      rw [rangesFrom, if_neg none]
      have empty : size - start = 0 := by omega
      rw [empty]
      rfl

/-- Every position lies in one of the planned ranges. -/
theorem exists_mem_planRanges
    {size chunkSize position : Nat}
    (positive : 0 < chunkSize)
    (within : position < size) :
    ∃ range ∈ planRanges size chunkSize,
      range.1 ≤ position ∧ position ≤ range.2 := by
  have member :
      position ∈
        (rangesFrom size chunkSize 0).flatMap fun range =>
          List.range' range.1 (range.2 - range.1 + 1) := by
    rw [rangesFrom_tile positive (Nat.zero_le size)]
    simpa using within
  rcases List.mem_flatMap.1 member with ⟨range, planned, inside⟩
  have bounds := bounds_of_mem_rangesFrom planned
  rw [List.mem_range'_1] at inside
  exact ⟨range, planned, inside.1, by omega⟩

/-! ## Writing at an offset -/

theorem writeAt_length
    {file bytes : Bytes}
    {start : Nat}
    (fits : start + bytes.length ≤ file.length) :
    (writeAt file start bytes).length = file.length := by
  simp [writeAt]
  omega

/-- A position within what is written has what is written. -/
theorem getElem?_writeAt_inside
    {file bytes : Bytes}
    {start position : Nat}
    (fits : start + bytes.length ≤ file.length)
    (low : start ≤ position)
    (high : position < start + bytes.length) :
    (writeAt file start bytes)[position]? = bytes[position - start]? := by
  have taken : (file.take start).length = start := by
    simp
    omega
  unfold writeAt
  rw [List.append_assoc, List.getElem?_append_right (by omega), taken,
    List.getElem?_append_left (by omega)]

/-- Any other position has what it had. -/
theorem getElem?_writeAt_outside
    {file bytes : Bytes}
    {start position : Nat}
    (fits : start + bytes.length ≤ file.length)
    (outside : position < start ∨ start + bytes.length ≤ position) :
    (writeAt file start bytes)[position]? = file[position]? := by
  have taken : (file.take start).length = start := by
    simp
    omega
  unfold writeAt
  rw [List.append_assoc]
  rcases outside with low | high
  · rw [List.getElem?_append_left (by omega), List.getElem?_take_of_lt low]
  · rw [List.getElem?_append_right (by omega), taken,
      List.getElem?_append_right (by omega), List.getElem?_drop]
    congr 1
    omega

/-! ## Concurrent transfers -/

/-- The positions a task has yet to write. -/
def Task.Covers (position : Nat) : Task → Prop
  | .waiting start stop => start ≤ position ∧ position ≤ stop
  | .received start stop _ => start ≤ position ∧ position ≤ stop
  | .ended => False

/-- A range within the object, and the right bytes of it. -/
def Task.Within (target : Bytes) : Task → Prop
  | .waiting start stop => start ≤ stop ∧ stop < target.length
  | .received start stop bytes =>
      start ≤ stop ∧ stop < target.length ∧
        bytes = (target.drop start).take (stop - start + 1)
  | .ended => True

/-- The moves a task still makes, its joining included. -/
def Task.weight : Task → Nat
  | .waiting _ _ => 3
  | .received _ _ _ => 2
  | .ended => 0

/-- The moves still to be made. -/
def Transfer.weight (transfer : Transfer) : Nat :=
  (transfer.tasks.map Task.weight).sum + transfer.joinable.length

/--
A position is still to be written, or right, or a failure waits to be
joined.
-/
structure Transfer.Sound
    (target : Bytes)
    (transfer : Transfer) : Prop where
  size : transfer.file.length = target.length
  within : ∀ task ∈ transfer.tasks, task.Within target
  written :
    ∀ position < target.length,
      (∃ task ∈ transfer.tasks, task.Covers position) ∨
        transfer.file[position]? = target[position]? ∨
          ∃ error, Except.error error ∈ transfer.joinable

/-- What a move takes for granted. -/
def Move.Possible (transfer : Transfer) : Move → Prop
  | .request index start stop =>
      transfer.tasks[index]? = some (.waiting start stop)
  | .write index start bytes =>
      ∃ stop, transfer.tasks[index]? = some (.received start stop bytes)
  | .join outcome => ∃ rest, transfer.joinable = outcome :: rest

theorem Move.possible_of_mem
    {transfer : Transfer}
    {move : Move}
    (member : move ∈ transfer.moves) :
    move.Possible transfer := by
  rcases List.mem_append.1 member with ofTask | ofJoin
  · rcases List.mem_filterMap.1 ofTask with ⟨⟨task, index⟩, listed, taken⟩
    have found : transfer.tasks[index]? = some task :=
      List.mem_zipIdx_iff_getElem?.1 listed
    cases task with
    | waiting start stop =>
        simp only [Transfer.taskMove] at taken
        split at taken
        · cases taken
          exact found
        · cases taken
    | received start stop bytes =>
        cases taken
        exact ⟨stop, found⟩
    | ended => cases taken
  · cases pending : transfer.joinable with
    | nil =>
        rw [pending] at ofJoin
        simp at ofJoin
    | cons outcome rest =>
        rw [pending] at ofJoin
        obtain rfl : move = .join outcome := by simpa using ofJoin
        exact ⟨rest, pending⟩

/-- Where nothing can move, everything has been done. -/
theorem Transfer.settled_of_moves_nil
    {transfer : Transfer}
    (stuck : transfer.moves = []) :
    (∀ task ∈ transfer.tasks, task = .ended) ∧ transfer.joinable = [] := by
  rcases List.append_eq_nil_iff.1 stuck with ⟨noTask, noJoin⟩
  have still :
      ∀ task ∈ transfer.tasks, ∃ index, transfer.taskMove index task = none := by
    intro task member
    rcases List.getElem?_of_mem member with ⟨index, found⟩
    exact
      ⟨index,
        List.filterMap_eq_nil_iff.1 noTask (task, index)
          (List.mem_zipIdx_iff_getElem?.2 found)⟩
  have noneReceived : transfer.inFlight = 0 := by
    refine List.countP_eq_zero.2 fun task member holds => ?_
    rcases still task member with ⟨index, none⟩
    cases task with
    | waiting start stop => simp at holds
    | received start stop bytes => cases none
    | ended => simp at holds
  constructor
  · intro task member
    rcases still task member with ⟨index, none⟩
    cases task with
    | waiting start stop =>
        simp [taskMove, noneReceived, multipartMaxConcurrency] at none
    | received start stop bytes => cases none
    | ended => rfl
  · simpa using noJoin

/-- A sum over tasks one of which has changed. -/
theorem sum_map_set
    (measure : Task → Nat)
    {tasks : List Task}
    {index : Nat}
    {old : Task}
    (found : tasks[index]? = some old)
    (new : Task) :
    ((tasks.set index new).map measure).sum + measure old =
      (tasks.map measure).sum + measure new := by
  induction tasks generalizing index with
  | nil => simp at found
  | cons first rest hypothesis =>
      cases index with
      | zero =>
          obtain rfl : first = old := by simpa using found
          simp only [List.set_cons_zero, List.map_cons, List.sum_cons]
          omega
      | succ index =>
          have later := hypothesis (by simpa using found)
          simp only [List.set_cons_succ, List.map_cons, List.sum_cons]
          omega

/-- Only the changed task is another than before. -/
theorem mem_set_or_eq
    {tasks : List Task}
    {index : Nat}
    {old task : Task}
    (found : tasks[index]? = some old)
    (member : task ∈ tasks)
    (new : Task) :
    task = old ∨ task ∈ tasks.set index new := by
  rcases List.getElem?_of_mem member with ⟨position, here⟩
  by_cases same : index = position
  · subst same
    rw [found] at here
    exact Or.inl (Option.some.inj here).symm
  · right
    have kept : (tasks.set index new)[position]? = some task := by
      rw [List.getElem?_set_ne same, here]
    exact List.mem_of_getElem? kept

/-- Whatever can move weighs something. -/
theorem Move.Possible.weight_pos
    {transfer : Transfer}
    {move : Move}
    (possible : move.Possible transfer) :
    0 < transfer.weight := by
  unfold Transfer.weight
  cases move with
  | request index start stop =>
      have tasks := sum_map_set Task.weight possible .ended
      simp only [Task.weight] at tasks
      omega
  | write index start bytes =>
      rcases possible with ⟨stop, found⟩
      have tasks := sum_map_set Task.weight found .ended
      simp only [Task.weight] at tasks
      omega
  | join outcome =>
      rcases possible with ⟨rest, pending⟩
      simp only [pending, List.length_cons]
      omega

namespace Transfer

theorem weight_finish
    {transfer : Transfer}
    {index : Nat}
    {old : Task}
    (found : transfer.tasks[index]? = some old)
    (file : Bytes)
    (outcome : Except ObjectStoreError Unit) :
    (transfer.finish index file outcome).weight + old.weight =
      transfer.weight + 1 := by
  have tasks := sum_map_set Task.weight found .ended
  simp only [weight, finish, List.length_append, List.length_singleton]
  simp only [Task.weight] at tasks ⊢
  omega

section Sound

variable
    {target : Bytes}
    {transfer : Transfer}
    {index start stop : Nat}

theorem Sound.within_set
    (sound : transfer.Sound target)
    {new : Task}
    (holds : new.Within target) :
    ∀ task ∈ transfer.tasks.set index new, task.Within target := by
  intro task member
  rcases List.mem_or_eq_of_mem_set member with old | rfl
  · exact sound.within task old
  · exact holds

/-- A range that has been received covers what it covered before. -/
theorem Sound.request
    (sound : transfer.Sound target)
    (found : transfer.tasks[index]? = some (.waiting start stop))
    {bytes : Bytes}
    (received : bytes = (target.drop start).take (stop - start + 1)) :
    Sound target
      { transfer with
        tasks := transfer.tasks.set index (.received start stop bytes) } := by
  have bounds := sound.within _ (List.mem_of_getElem? found)
  refine ⟨sound.size, sound.within_set ⟨bounds.1, bounds.2, received⟩,
    fun position inside => ?_⟩
  rcases sound.written position inside with ⟨task, member, covers⟩ | right
  · left
    rcases mem_set_or_eq found member (.received start stop bytes) with
      rfl | kept
    · have listed : index < transfer.tasks.length :=
        (List.getElem?_eq_some_iff.1 found).1
      exact ⟨_, List.mem_set listed _, covers⟩
    · exact ⟨task, kept, covers⟩
  · exact Or.inr right

/-- After a failure every position is accounted for. -/
theorem Sound.fail
    (sound : transfer.Sound target)
    {file : Bytes}
    (size : file.length = transfer.file.length)
    (error : ObjectStoreError) :
    Sound target (transfer.finish index file (.error error)) :=
  ⟨size.trans sound.size, sound.within_set trivial,
    fun _ _ => Or.inr (Or.inr ⟨error, by simp [finish]⟩)⟩

theorem Sound.received_length
    (sound : transfer.Sound target)
    {bytes : Bytes}
    (found : transfer.tasks[index]? = some (.received start stop bytes)) :
    bytes.length = stop - start + 1 ∧
      start + bytes.length ≤ transfer.file.length := by
  have bounds := sound.within _ (List.mem_of_getElem? found)
  have length : bytes.length = stop - start + 1 := by
    rw [bounds.2.2, List.length_take, List.length_drop]
    have := bounds.1
    have := bounds.2.1
    omega
  have size := sound.size
  have low := bounds.1
  have high := bounds.2.1
  exact ⟨length, by omega⟩

/-- A written range is right, and so is what was right before. -/
theorem Sound.write
    (sound : transfer.Sound target)
    {bytes : Bytes}
    (found : transfer.tasks[index]? = some (.received start stop bytes)) :
    Sound target
      (transfer.finish index (writeAt transfer.file start bytes)
        (.ok ())) := by
  have bounds := sound.within _ (List.mem_of_getElem? found)
  have length := sound.received_length found
  have low := bounds.1
  have inside
      (position : Nat)
      (after : start ≤ position)
      (before : position ≤ stop) :
      (writeAt transfer.file start bytes)[position]? =
        target[position]? := by
    rw [getElem?_writeAt_inside length.2 after (by omega), bounds.2.2,
      List.getElem?_take_of_lt (by omega), List.getElem?_drop]
    congr 1
    omega
  refine
    ⟨(writeAt_length length.2).trans sound.size, sound.within_set trivial,
      fun position within => ?_⟩
  by_cases covered : start ≤ position ∧ position ≤ stop
  · exact Or.inr (Or.inl (inside position covered.1 covered.2))
  · have outside : position < start ∨ start + bytes.length ≤ position := by
      omega
    rcases sound.written position within with
      ⟨task, member, covers⟩ | right | ⟨error, waits⟩
    · rcases mem_set_or_eq found member .ended with rfl | kept
      · exact absurd covers covered
      · exact Or.inl ⟨task, kept, covers⟩
    · right
      left
      exact (getElem?_writeAt_outside length.2 outside).trans right
    · exact Or.inr (Or.inr ⟨error, by simp [finish, waits]⟩)

/-- Joining a task that has succeeded loses no failure. -/
theorem Sound.join
    (sound : transfer.Sound target)
    {rest : List (Except ObjectStoreError Unit)}
    (pending : transfer.joinable = .ok () :: rest) :
    Sound target { transfer with joinable := transfer.joinable.tail } := by
  refine ⟨sound.size, sound.within, fun position inside => ?_⟩
  rcases sound.written position inside with covered | right | ⟨error, waits⟩
  · exact Or.inl covered
  · exact Or.inr (Or.inl right)
  · rw [pending] at waits
    rcases List.mem_cons.1 waits with impossible | later
    · cases impossible
    · exact Or.inr (Or.inr ⟨error, by simpa [pending] using later⟩)

/-- Once everything has been done, the file is the object. -/
theorem Sound.file_eq
    (sound : transfer.Sound target)
    (ended : ∀ task ∈ transfer.tasks, task = .ended)
    (joined : transfer.joinable = []) :
    transfer.file = target := by
  refine List.ext_getElem? fun position => ?_
  by_cases inside : position < target.length
  · rcases sound.written position inside with
      ⟨task, member, covers⟩ | right | ⟨error, waits⟩
    · rw [ended task member] at covers
      exact covers.elim
    · exact right
    · rw [joined] at waits
      simp at waits
  · have size := sound.size
    rw [List.getElem?_eq_none (by omega), List.getElem?_eq_none (by omega)]

end Sound

end Transfer

/-- Before anything has been written, every position is waited for. -/
theorem Transfer.sound_start (target : Bytes) :
    Transfer.Sound target (.start target.length) := by
  have positive : 0 < multipartChunkSize := by decide
  refine ⟨List.length_replicate, fun task member => ?_,
    fun position inside => Or.inl ?_⟩
  · rcases List.mem_map.1 member with ⟨range, planned, rfl⟩
    exact bounds_of_mem_rangesFrom planned
  · rcases exists_mem_planRanges positive inside with
      ⟨range, planned, covers⟩
    exact ⟨_, List.mem_map.2 ⟨range, planned, rfl⟩, covers⟩

theorem Transfer.weight_start (size : Nat) :
    (Transfer.start size).weight =
      3 * (planRanges size multipartChunkSize).length := by
  have each (ranges : List (Nat × Nat)) :
      ((ranges.map fun range => Task.waiting range.1 range.2).map
          Task.weight).sum = 3 * ranges.length := by
    induction ranges with
    | nil => rfl
    | cons range rest hypothesis =>
        simp only [List.map_cons, List.sum_cons, hypothesis,
          List.length_cons, Task.weight]
        omega
  exact each _

section Downloads

variable [KeyVersions]

/-! ## Answers -/

open KeyVersions

/-- An unbroken transfer delivers these bytes. -/
def Stream.Delivers (stream : Stream) (body : Bytes) : Prop :=
  stream.broken = false → stream.pieces.flatten = body

/-- What a server answers that has held these versions. -/
def credible
    (held : Set Version) : (request : Call) → Reply request → Prop
  | .head, .ok output =>
      ∃ version ∈ held,
        output.contentLength = wireLength (body version) ∧
          output.eTag = some (etag version)
  | .getObject (some tag), .ok stream =>
      ∃ version, etag version = tag ∧ stream.Delivers (body version)
  | .getRange start stop (some tag), .ok stream =>
      ∃ version,
        etag version = tag ∧
          stream.Delivers
            (((body version).drop start).take (stop - start + 1))
  | _, _ => True

section Answers

variable {held : Set Version}

/-- The size and the tag are those of one version. -/
theorem head_returns :
    Returns (credible held)
      (fun found =>
        ∃ version ∈ held,
          found.size = (body version).length ∧
            found.etag = some (etag version))
      head := by
  intro reply likely
  refine returns_ofExcept fun found answered => ?_
  cases reply with
  | error error => cases answered
  | ok output =>
      rcases likely with ⟨version, member, length, tag⟩
      refine ⟨version, member, ?_⟩
      simp only [Except.bind, headOutputToMeta] at answered
      cases given : output.contentLength with
      | none =>
          rw [given] at answered
          cases answered
      | some rawSize =>
          rw [given] at answered
          cases modified : output.lastModified with
          | none =>
              rw [modified] at answered
              cases answered
          | some _ =>
              rw [modified] at answered
              cases answered
              refine ⟨?_, tag⟩
              rw [given] at length
              unfold wireLength at length
              split at length
              · obtain rfl := Option.some.inj length
                exact Int.toNat_natCast _
              · cases length

/-- Pieces are written one after the other. -/
theorem writePieces_returns (content : Bytes) (pieces : List Bytes) :
    Returns (credible held)
      (fun written => written = content ++ pieces.flatten)
      (writePieces content pieces) := by
  induction pieces generalizing content with
  | nil => exact (List.append_nil content).symm
  | cons piece rest hypothesis =>
      refine Returns.after _ fun _ => ?_
      rw [List.flatten_cons, ← List.append_assoc]
      exact hypothesis (content ++ piece)

/-- A conditional download has the body of the version it asks for. -/
theorem downloadSingle_returns (version : Version) :
    Returns (credible held) (fun content => content = body version)
      (downloadSingle (some (etag version))) := by
  have stream :
      Returns (credible held)
        (fun stream : Stream => stream.Delivers (body version))
        (.call (.getObject (some (etag version))) ofExcept) := by
    intro reply likely
    refine returns_ofExcept fun stream answered => ?_
    subst answered
    rcases likely with ⟨other, same, delivers⟩
    rw [← etag_injective same]
    exact delivers
  unfold downloadSingle
  refine stream.bind fun stream delivers => ?_
  refine Returns.after _ fun _ => ?_
  refine (writePieces_returns [] stream.pieces).bind fun content written => ?_
  cases whole : stream.broken with
  | true => exact trivial
  | false =>
      refine Returns.after _ fun _ => ?_
      rw [List.nil_append] at written
      exact written.trans (delivers whole)

/-- A range has the bytes of the version it asks for. -/
theorem requestRange_returns (version : Version) (start stop : Nat) :
    Returns (credible held)
      (fun bytes =>
        bytes = ((body version).drop start).take (stop - start + 1))
      (requestRange (some (etag version)) start stop) := by
  have stream :
      Returns (credible held)
        (fun stream : Stream =>
          stream.Delivers
            (((body version).drop start).take (stop - start + 1)))
        (.call (.getRange start stop (some (etag version))) ofExcept) := by
    intro reply likely
    refine returns_ofExcept fun stream answered => ?_
    subst answered
    rcases likely with ⟨other, same, delivers⟩
    rw [← etag_injective same]
    exact delivers
  unfold requestRange
  refine stream.bind fun stream delivers => ?_
  have collected :
      Returns (credible held)
        (fun bytes =>
          bytes = ((body version).drop start).take (stop - start + 1))
        (ofExcept stream.collect : Run Bytes) := by
    refine returns_ofExcept fun bytes found => ?_
    unfold Stream.collect at found
    split at found
    · cases found
    next whole =>
      cases found
      exact delivers (Bool.eq_false_iff.2 whole)
  refine collected.bind fun bytes right => ?_
  split
  · exact trivial
  · exact right

/-- A move keeps the transfer sound and makes it lighter. -/
theorem advance_returns
    {version : Version}
    {transfer : Transfer}
    (sound : transfer.Sound (body version))
    {move : Move}
    (possible : move.Possible transfer) :
    Returns (credible held)
      (fun next =>
        next.Sound (body version) ∧ next.weight < transfer.weight)
      (advance (some (etag version)) transfer move) := by
  cases move with
  | request index start stop =>
      have requested :
          Returns (credible held)
            (fun outcome =>
              ∀ bytes, outcome = .ok bytes →
                bytes =
                  ((body version).drop start).take (stop - start + 1))
            ((requestRange (some (etag version)) start stop).attempt :
              Run (Except ObjectStoreError Bytes)) := by
        refine (requestRange_returns version start stop).attempt ?_ ?_
        · intro bytes right other same
          cases same
          exact right
        · intro error bytes impossible
          cases impossible
      refine requested.bind fun outcome right => ?_
      cases outcome with
      | ok bytes =>
          refine ⟨sound.request possible (right bytes rfl), ?_⟩
          have tasks :=
            sum_map_set Task.weight possible (.received start stop bytes)
          simp only [Transfer.weight, Task.weight] at tasks ⊢
          omega
      | error error =>
          refine ⟨sound.fail rfl error, ?_⟩
          have weight :=
            Transfer.weight_finish possible transfer.file (.error error)
          simp only [Task.weight] at weight
          omega
  | write index start bytes =>
      rcases possible with ⟨stop, found⟩
      have length := sound.received_length found
      intro reply _
      cases reply with
      | ok done =>
          refine ⟨sound.write found, ?_⟩
          have weight :=
            Transfer.weight_finish found
              (writeAt transfer.file start bytes) (.ok ())
          simp only [Task.weight] at weight
          omega
      | error count =>
          have shorter : (bytes.take count).length ≤ bytes.length :=
            List.length_take_le' _ _
          refine ⟨sound.fail (writeAt_length (by omega)) _, ?_⟩
          have weight :=
            Transfer.weight_finish found
              (writeAt transfer.file start (bytes.take count))
              (.error .other)
          simp only [Task.weight] at weight
          omega
  | join outcome =>
      rcases possible with ⟨rest, pending⟩
      cases outcome with
      | ok done =>
          refine ⟨sound.join pending, ?_⟩
          simp [Transfer.weight, pending]
      | error error => exact trivial

/-- However the moves are ordered, the file ends as the object. -/
theorem transferAll_returns
    {version : Version}
    {transfer : Transfer}
    (sound : transfer.Sound (body version))
    {count : Nat}
    (enough : transfer.weight ≤ count) :
    Returns (credible held) (fun last => last.file = body version)
      (transferAll (some (etag version)) count transfer) := by
  have finished
      {transfer : Transfer}
      (sound : transfer.Sound (body version))
      (stuck : transfer.moves = []) :
      transfer.file = body version :=
    sound.file_eq (Transfer.settled_of_moves_nil stuck).1
      (Transfer.settled_of_moves_nil stuck).2
  induction count generalizing transfer with
  | zero =>
      refine finished sound (List.eq_nil_iff_forall_not_mem.2 ?_)
      intro move member
      have heavy := (Move.possible_of_mem member).weight_pos
      omega
  | succ count hypothesis =>
      unfold transferAll
      cases possible : transfer.moves with
      | nil => exact finished sound possible
      | cons first others =>
          intro choice _
          have member :
              (first :: others).getD choice first ∈ transfer.moves := by
            rw [possible, List.getD_eq_getElem?_getD]
            cases chosen : (first :: others)[choice]? with
            | none => exact List.mem_cons_self
            | some move => exact List.mem_of_getElem? chosen
          refine
            (advance_returns sound
                (Move.possible_of_mem member)).bind fun next after => ?_
          exact hypothesis after.1 (by omega)

/-- A large object is downloaded as a whole. -/
theorem downloadMultipart_returns (version : Version) :
    Returns (credible held) (fun content => content = body version)
      (downloadMultipart (body version).length
        (some (etag version))) := by
  refine Returns.after _ fun _ => ?_
  refine Returns.after _ fun _ => ?_
  refine
    (transferAll_returns (Transfer.sound_start (body version))
      (Transfer.weight_start _).le).bind fun last whole => ?_
  exact Returns.after _ fun _ => whole

/-- The temporary file ends as one of the versions held. -/
theorem downloadTemp_returns :
    Returns (credible held)
      (fun content => ∃ version ∈ held, content = body version)
      downloadTemp := by
  refine head_returns.bind fun found described => ?_
  rcases described with ⟨version, member, size, tag⟩
  refine Returns.after _ fun _ => ?_
  split
  next empty =>
    refine ⟨version, member, ?_⟩
    exact (List.eq_nil_of_length_eq_zero (size ▸ empty)).symm
  next more =>
    rw [size, tag]
    split
    · exact
        (downloadSingle_returns version).weaken
          fun content right => ⟨version, member, right⟩
    · exact
        (downloadMultipart_returns version).weaken
          fun content right => ⟨version, member, right⟩

end Answers

/-! ## Whole downloads -/

/-- The versions the object has had so far. -/
def World.held (world : World) : Set Version :=
  {version | some version ∈ world.history}

/-- Every request is preceded by a turn of the others. -/
theorem serve_history (request : Call) (world : World) :
    (serve request world).2.history =
      world.turn.replaced.reverse ++ world.history := by
  cases request with
  | persist content =>
      simp only [serve]
      split
      · rfl
      · rfl
  | _ => rfl

/-- Only the rename touches the destination. -/
theorem serve_dest
    {request : Call}
    (elsewhere : ∀ content, request ≠ .persist content)
    (world : World) :
    (serve request world).2.dest = world.dest := by
  cases request with
  | persist content => exact absurd rfl (elsewhere content)
  | _ => rfl

theorem held_serve
    {versions : Set Version}
    (request : Call)
    (world : World)
    (kept : (serve request world).2.held ⊆ versions) :
    world.held ⊆ versions := by
  intro version member
  refine kept ?_
  show some version ∈ (serve request world).2.history
  rw [serve_history]
  exact List.mem_append_right _ member

/-- An answer comes from the version stored, which has the tag asked for. -/
theorem World.answer_eq_ok
    {world : World}
    {ifMatch : Option Text}
    {version : Version}
    (answered : world.answer ifMatch = .ok version) :
    some version ∈ world.later.history ∧
      ∀ tag, ifMatch = some tag → etag version = tag := by
  unfold answer at answered
  cases fault : world.turn.fault with
  | some error =>
      rw [fault] at answered
      cases answered
  | none =>
      rw [fault] at answered
      cases stored : world.later.current? with
      | none =>
          rw [stored] at answered
          cases answered
      | some found =>
          rw [stored] at answered
          simp only at answered
          split at answered
          next matched =>
            cases answered
            constructor
            · rcases Option.join_eq_some_iff.1 stored with first
              exact List.mem_of_head? first
            · rintro tag rfl
              exact (beq_iff_eq.1 matched).symm
          next => cases answered

omit [KeyVersions] in
theorem piecesOf_flatten (cuts : List Nat) (body : Bytes) :
    (piecesOf cuts body).flatten = body := by
  induction cuts generalizing body with
  | nil => exact List.append_nil body
  | cons count rest hypothesis =>
      rw [piecesOf, List.flatten_cons, hypothesis, List.take_append_drop]

theorem deliver_delivers (turn : Turn) (body : Bytes) :
    (turn.deliver body).Delivers body := by
  intro whole
  have unbroken : turn.broken = false := whole
  simp only [Turn.deliver, unbroken, Bool.false_eq_true, if_false]
  exact piecesOf_flatten turn.cuts body

/-- The server answers from the versions the object has had. -/
theorem serve_credible
    {versions : Set Version}
    (request : Call)
    (world : World)
    (kept : (serve request world).2.held ⊆ versions) :
    credible versions request (serve request world).1 := by
  have stored
      {version : Version}
      (member : some version ∈ world.later.history) :
      version ∈ versions := by
    refine kept ?_
    show some version ∈ (serve request world).2.history
    rw [serve_history]
    exact member
  cases request with
  | head =>
      simp only [serve]
      cases answered : world.answer none with
      | error error => exact trivial
      | ok version =>
          have found := World.answer_eq_ok answered
          exact ⟨version, stored found.1, rfl, rfl⟩
  | getObject ifMatch =>
      cases ifMatch with
      | none => exact trivial
      | some tag =>
          simp only [serve]
          cases answered : world.answer (some tag) with
          | error error => exact trivial
          | ok version =>
              have found := World.answer_eq_ok answered
              exact ⟨version, found.2 tag rfl, deliver_delivers _ _⟩
  | getRange start stop ifMatch =>
      cases ifMatch with
      | none => exact trivial
      | some tag =>
          simp only [serve]
          cases answered : world.answer (some tag) with
          | error error => exact trivial
          | ok version =>
              have found := World.answer_eq_ok answered
              simp only [Except.bind]
              split
              · exact ⟨version, found.2 tag rfl, deliver_delivers _ _⟩
              · exact trivial
  | file step => exact trivial
  | writeRange => exact trivial
  | schedule count => exact trivial
  | persist content => exact trivial

/-- The calls that leave the destination alone. -/
def Call.Elsewhere (call : Call) : Prop :=
  ∀ content, call ≠ .persist content

section Elsewhere

omit [KeyVersions]

theorem issues_fileStep (step : FileStep) :
    Issues (fun _ _ => True) Call.Elsewhere (fileStep step) :=
  ⟨fun _ => nofun, fun _ _ => issues_ofExcept _⟩

theorem issues_writePieces (content : Bytes) (pieces : List Bytes) :
    Issues (fun _ _ => True) Call.Elsewhere
      (writePieces content pieces) := by
  induction pieces generalizing content with
  | nil => trivial
  | cons piece rest hypothesis =>
      exact (issues_fileStep _).bind fun _ => hypothesis _

theorem issues_downloadSingle (tag : Option Text) :
    Issues (fun _ _ => True) Call.Elsewhere (downloadSingle tag) := by
  have asked :
      Issues (fun _ _ => True) Call.Elsewhere
        (.call (.getObject tag) ofExcept : Run Stream) :=
    ⟨fun _ => nofun, fun _ _ => issues_ofExcept _⟩
  refine asked.bind fun stream => ?_
  refine (issues_fileStep _).bind fun _ => ?_
  refine (issues_writePieces _ _).bind fun content => ?_
  split
  · trivial
  · exact (issues_fileStep _).bind fun _ => trivial

theorem issues_advance
    (tag : Option Text)
    (transfer : Transfer)
    (move : Move) :
    Issues (fun _ _ => True) Call.Elsewhere
      (advance tag transfer move) := by
  cases move with
  | request index start stop =>
      have asked :
          Issues (fun _ _ => True) Call.Elsewhere
            (.call (.getRange start stop tag) ofExcept : Run Stream) :=
        ⟨fun _ => nofun, fun _ _ => issues_ofExcept _⟩
      have requested :
          Issues (fun _ _ => True) Call.Elsewhere
            (requestRange tag start stop) := by
        refine asked.bind fun stream => ?_
        refine (issues_ofExcept _).bind fun bytes => ?_
        split
        · trivial
        · trivial
      refine requested.attempt.bind fun outcome => ?_
      cases outcome with
      | ok bytes => trivial
      | error error => trivial
  | write index start bytes =>
      refine ⟨fun _ => nofun, fun reply _ => ?_⟩
      cases reply with
      | ok done => trivial
      | error count => trivial
  | join outcome =>
      cases outcome with
      | ok done => trivial
      | error error => trivial

theorem issues_transferAll
    (tag : Option Text)
    (count : Nat)
    (transfer : Transfer) :
    Issues (fun _ _ => True) Call.Elsewhere
      (transferAll tag count transfer) := by
  induction count generalizing transfer with
  | zero => trivial
  | succ count hypothesis =>
      unfold transferAll
      split
      · trivial
      · refine ⟨fun _ => nofun, fun choice _ => ?_⟩
        exact (issues_advance tag transfer _).bind hypothesis

/-- Nothing but the rename touches the destination. -/
theorem issues_downloadTemp :
    Issues (fun _ _ => True) Call.Elsewhere downloadTemp := by
  have asked : Issues (fun _ _ => True) Call.Elsewhere head :=
    ⟨fun _ => nofun, fun _ _ => issues_ofExcept _⟩
  refine asked.bind fun found => ?_
  refine (issues_fileStep _).bind fun _ => ?_
  split
  · trivial
  · split
    · exact issues_downloadSingle _
    · refine (issues_fileStep _).bind fun _ => ?_
      refine (issues_fileStep _).bind fun _ => ?_
      refine (issues_transferAll _ _ _).bind fun transfer => ?_
      exact (issues_fileStep _).bind fun _ => trivial

end Elsewhere

theorem downloadTemp_run
    {world after : World}
    {content : Bytes}
    (ran : run serve downloadTemp world = (.ok content, after)) :
    ∃ version, some version ∈ after.history ∧ content = body version := by
  have returns :
      Returns (credible after.held)
        (fun content => ∃ version ∈ after.held, content = body version)
        downloadTemp :=
    downloadTemp_returns
  exact
    Returns.run_within (fun state : World => state.held ⊆ after.held)
      held_serve serve_credible returns (by rw [ran]) (by rw [ran])

/-- One attempt leaves a version at the destination, or leaves it alone. -/
theorem headThenDownload_run (world : World) :
    match run serve headThenDownload world with
    | (.ok (), after) =>
        ∃ version,
          some version ∈ after.history ∧
            after.dest = some (body version)
    | (.error _, after) => after.dest = world.dest := by
  have untouched :
      (fun later : World => later.dest = world.dest)
        (run serve downloadTemp world).2 :=
    issues_downloadTemp.run (fun _ _ => trivial)
      (fun request state elsewhere kept =>
        (serve_dest elsewhere state).trans kept)
      rfl
  unfold headThenDownload
  rw [run_bind]
  cases ran : run serve downloadTemp world with
  | mk outcome middle =>
      rw [ran] at untouched
      cases outcome with
      | error error => exact untouched
      | ok content =>
          rcases downloadTemp_run ran with ⟨version, member, rfl⟩
          simp only [persistTemp, run_call, serve]
          cases stepped : attemptLocally middle.turn with
          | error error => exact untouched
          | ok done =>
              refine ⟨version, ?_, rfl⟩
              exact List.mem_append_right _ member

/--
A download that succeeds leaves the whole body of one version of the object
at the destination, and one that fails leaves the destination as it was.
-/
theorem getToFile_atomic (hasParent : Bool) (world : World) :
    match run serve (getToFile hasParent) world with
    | (.ok (), after) =>
        ∃ version,
          some version ∈ after.history ∧
            after.dest = some (body version)
    | (.error _, after) => after.dest = world.dest := by
  cases hasParent with
  | false => rfl
  | true =>
      have first := headThenDownload_run world
      simp only [getToFile, if_true, run_bind, run_attempt]
      cases ran : run serve headThenDownload world with
      | mk outcome middle =>
          rw [ran] at first
          cases outcome with
          | ok done => exact first
          | error error =>
              cases error with
              | preconditionFailed key =>
                  have second := headThenDownload_run middle
                  simp only
                  cases again : run serve headThenDownload middle with
                  | mk outcome after =>
                      rw [again] at second
                      cases outcome with
                      | ok done => exact second
                      | error error => exact second.trans first
              | _ => exact first

end Downloads

/-! ## A download -/

section Schedules

/-- Numbered versions of one byte each. -/
@[reducible]
def KeyVersions.simple : KeyVersions where
  Version := Nat
  body := fun version => [UInt8.ofNat version]
  etag := fun version => List.replicate version 'v'
  etag_injective := by
    intro left right equal
    simpa using congrArg List.length equal

attribute [local instance] KeyVersions.simple

/-- An object that is replaced between HEAD and GET is downloaded anew. -/
example :
    (run serve (getToFile true)
      ⟨[], [some (1 : Nat)], none,
        [.calm, .calm, ⟨[some (2 : Nat)], none, [], false, 0⟩]⟩).2.dest =
      some [2] := by
  decide +kernel

end Schedules

end GitRemoteObjectStore.S3
