import GitRemoteObjectStore.Lock
import GitRemoteObjectStore.Library.Machine

/-!
# Exclusion by the lock object

Any number of clients acquire one lock, refresh it while they hold it and
release it, interleaved at single store calls.  A holder can be lost, and a
refresh of a client that is done may still arrive.  The deletion of a stale
lock is not conditional: it removes whatever is at the key when it arrives.
Two clients never hold the lock as long as such a deletion finds nothing, or
the lock its client has looked at.
-/

namespace GitRemoteObjectStore.LockExclusion

open CallProgram Prog

variable {ι : Type}

/-- Where a client is. -/
inductive Phase where
  | idle
  | acquiring (program : Program ObjectStoreError Bool)
  /-- The client has a lock guard it has not released. -/
  | holding
  /-- The guard is gone; a refresh may still be on its way. -/
  | spent

/-- Whether a client has an unreleased lock guard. -/
def Phase.Holding : Phase → Prop
  | .holding => True
  | _ => False

instance (phase : Phase) : Decidable phase.Holding :=
  match phase with
  | .idle => .isFalse id
  | .acquiring _ => .isFalse id
  | .holding => .isTrue trivial
  | .spent => .isFalse id

/-- A client whose acquisition has come to its end has the guard or not. -/
def Phase.resume : Program ObjectStoreError Bool → Phase
  | .done true => .holding
  | .done false => .idle
  | .fail _ => .idle
  | .call request next => .acquiring (.call request next)

/--
The bucket and the clients.  Every lock object has a number, counted up when
one is created, and each client the number of the one it last looked at.
-/
structure State (ι : Type) where
  world : World
  phase : ι → Phase
  generation : Nat
  seen : ι → Nat

/-- A step of one client, or the passing of time. -/
inductive Action (ι : Type) where
  /-- Begin to acquire, at a time read a while ago. -/
  | acquire (client : ι) (delay : Nat)
  /-- The next store call of an acquisition. -/
  | call (client : ι)
  /-- A heartbeat re-puts the lock. -/
  | refresh (client : ι)
  /-- `LockGuard::release` deletes the lock. -/
  | release (client : ι)
  /-- The guard is dropped, or its process dies. -/
  | drop (client : ι)
  /-- An acquisition is given up, or its process dies. -/
  | giveUp (client : ι)
  /-- A client whose guard is gone may acquire again. -/
  | recover (client : ι)
  | elapse (duration : Nat)

section Clients

variable [Platform] [DecidableEq ι] (lock : Text) (ttl : Int)

/-- The number of the lock object after a call. -/
def generationAfter (request : Call) (state : State ι) : Nat :=
  if (state.world.get? lock).isNone &&
      ((answer request state.world).2.get? lock).isSome then
    state.generation + 1
  else state.generation

/-- Which lock objects the clients have looked at after a call. -/
def seenAfter
    (client : ι)
    (request : Call)
    (state : State ι) : ι → Nat :=
  match request with
  | .head _ => Function.update state.seen client state.generation
  | _ => state.seen

/-- The state after a call of one client. -/
def State.after
    (state : State ι)
    (client : ι)
    (request : Call)
    (phase : Phase) : State ι where
  world := (answer request state.world).2
  phase := Function.update state.phase client phase
  generation := generationAfter lock request state
  seen := seenAfter client request state

/-- The state in which only a client's phase is another one. -/
def State.enter
    (state : State ι)
    (client : ι)
    (phase : Phase) : State ι :=
  { state with phase := Function.update state.phase client phase }

/-- The steps of the clients. -/
def step? : Machine (State ι) (Action ι) := fun state action =>
  match action with
  | .acquire client delay =>
      match state.phase client with
      | .idle =>
          some
            (state.enter client
              (.acquiring
                (acquireLock lock ttl (state.world.clock - delay))))
      | _ => none
  | .call client =>
      match state.phase client with
      | .acquiring (.call request next) =>
          some
            (state.after lock client request
              (.resume (next (answer request state.world).1)))
      | _ => none
  | .refresh client =>
      match state.phase client with
      | .holding =>
          some (state.after lock client (.put lock (.text [])) .holding)
      | .spent =>
          some (state.after lock client (.put lock (.text [])) .spent)
      | _ => none
  | .release client =>
      match state.phase client with
      | .holding => some (state.after lock client (.delete lock) .spent)
      | _ => none
  | .drop client =>
      match state.phase client with
      | .holding => some (state.enter client .spent)
      | _ => none
  | .giveUp client =>
      match state.phase client with
      | .acquiring _ => some (state.enter client .idle)
      | _ => none
  | .recover client =>
      match state.phase client with
      | .spent => some (state.enter client .idle)
      | _ => none
  | .elapse duration =>
      some { state with world := state.world.wait duration }

/-- Nobody is doing anything. -/
def State.quiet (world : World) : State ι :=
  ⟨world, fun _ => .idle, 0, fun _ => 0⟩

/-- The heartbeats keep the lock of a holder from going stale. -/
def Refreshed (state : State ι) : Prop :=
  ∀ client, (state.phase client).Holding →
    ∀ object ∈ state.world.get? lock,
      state.world.clock - object.lastModified ≤ ttl

instance
    {count : Nat}
    (state : State (Fin count)) :
    Decidable (Refreshed lock ttl state) :=
  inferInstanceAs
    (Decidable (∀ _ : Fin count, _ → ∀ object ∈ _, _ ≤ _))

/-- The next call of an acquisition deletes the lock. -/
def Phase.Deletes (lock : Text) : Phase → Prop
  | .acquiring (.call (.delete key) _) => key = lock
  | _ => False

instance (phase : Phase) : Decidable (phase.Deletes lock) :=
  match phase with
  | .acquiring (.call (.delete key) _) =>
      inferInstanceAs (Decidable (key = lock))
  | .acquiring (.call (.list _) _) => .isFalse id
  | .acquiring (.call (.get _) _) => .isFalse id
  | .acquiring (.call (.head _) _) => .isFalse id
  | .acquiring (.call (.put _ _) _) => .isFalse id
  | .acquiring (.call (.putIfAbsent _ _) _) => .isFalse id
  | .acquiring (.call .nowUtc _) => .isFalse id
  | .acquiring (.call .newUuid _) => .isFalse id
  | .acquiring (.done _) => .isFalse id
  | .acquiring (.fail _) => .isFalse id
  | .idle => .isFalse id
  | .holding => .isFalse id
  | .spent => .isFalse id

/-- An acquisition deletes nothing, or the lock it has looked at. -/
def DeletesSeen (state : State ι) : Action ι → Prop
  | .call client =>
      (state.phase client).Deletes lock →
        state.world.get? lock = none ∨
          state.seen client = state.generation
  | _ => True

instance
    (state : State ι)
    (action : Action ι) :
    Decidable (DeletesSeen lock state action) :=
  match action with
  | .call _ => inferInstanceAs (Decidable (_ → _ ∨ _))
  | .acquire _ _ => .isTrue trivial
  | .refresh _ => .isTrue trivial
  | .release _ => .isTrue trivial
  | .drop _ => .isTrue trivial
  | .giveUp _ => .isTrue trivial
  | .recover _ => .isTrue trivial
  | .elapse _ => .isTrue trivial

/-! ## The stages of an acquisition -/

/-- Delete a stale lock and try again. -/
def deleteStale : Program ObjectStoreError Bool := do
  deleteIdempotent lock
  Store.putIfAbsent lock (.text [])

/-- Look at the lock somebody has. -/
def examine (now : Int) : Program ObjectStoreError Bool := do
  match ← (Store.head lock).attempt with
  | .error (.notFound _) => return false
  | .error error => .fail error
  | .ok found =>
      if now - found.lastModified ≤ ttl then return false
      else deleteStale lock

omit [Platform] in
theorem acquireLock_eq (now : Int) :
    acquireLock lock ttl now =
      Store.putIfAbsent lock (.text []) >>= fun created =>
        if created then .done true else examine lock ttl now :=
  rfl

section Stages

variable
    {lock ttl}
    {state : State ι}
    {client : ι}
    {now : Int}

theorem step?_begin
    (phase : state.phase client = .acquiring (acquireLock lock ttl now)) :
    step? lock ttl state (.call client) =
      some
        (state.after lock client (.putIfAbsent lock (.text []))
          (if (state.world.get? lock).isSome then
            .acquiring (examine lock ttl now)
          else .holding)) := by
  simp only [step?, phase]
  rw [acquireLock_eq]
  cases found : state.world.get? lock with
  | none =>
      simp only [Store.putIfAbsent, call_bind, answer, found]
      rfl
  | some object =>
      simp only [Store.putIfAbsent, call_bind, answer, found]
      rfl

theorem step?_examine
    (phase : state.phase client = .acquiring (examine lock ttl now)) :
    step? lock ttl state (.call client) =
      some
        (state.after lock client (.head lock)
          (match state.world.get? lock with
          | none => .idle
          | some object =>
              if now - object.lastModified ≤ ttl then .idle
              else .acquiring (deleteStale lock))) := by
  simp only [step?, phase]
  unfold examine
  cases found : state.world.get? lock with
  | none =>
      simp only [Store.head, attempt_call, call_bind, answer, found]
      rfl
  | some object =>
      simp only [Store.head, attempt_call, call_bind, answer, found]
      simp only [Prog.ofExcept, attempt_done, done_bind]
      split <;> rfl

theorem step?_deleteStale
    (phase : state.phase client = .acquiring (deleteStale lock)) :
    step? lock ttl state (.call client) =
      some
        (state.after lock client (.delete lock)
          (.acquiring (Store.putIfAbsent lock (.text [])))) := by
  simp only [step?, phase]
  unfold deleteStale deleteIdempotent
  cases found : state.world.get? lock with
  | none =>
      simp only [Store.delete, attempt_call, call_bind, answer, found]
      rfl
  | some object =>
      simp only [Store.delete, attempt_call, call_bind, answer, found]
      rfl

theorem step?_retry
    (phase :
      state.phase client =
        .acquiring (Store.putIfAbsent lock (.text []))) :
    step? lock ttl state (.call client) =
      some
        (state.after lock client (.putIfAbsent lock (.text []))
          (if (state.world.get? lock).isSome then .idle
          else .holding)) := by
  simp only [step?, phase]
  cases found : state.world.get? lock with
  | none =>
      simp only [Store.putIfAbsent, answer, found]
      rfl
  | some object =>
      simp only [Store.putIfAbsent, answer, found]
      rfl

end Stages

/-! ## The invariant -/

/-- What holds of an acquisition at each of its stages. -/
inductive Acquiring
    (state : State ι)
    (client : ι)
    (program : Program ObjectStoreError Bool) : Prop where
  | begins (now : Int)
      (same : program = acquireLock lock ttl now)
      (past : now ≤ state.world.clock)
  | examines (now : Int)
      (same : program = examine lock ttl now)
      (past : now ≤ state.world.clock)
  | deletes
      (same : program = deleteStale lock)
      (unheld :
        (state.world.get? lock).isSome →
          state.seen client = state.generation →
            ∀ other, ¬ (state.phase other).Holding)
  | retries
      (same : program = Store.putIfAbsent lock (.text []))

/-- One holder at most, whose lock is there. -/
structure Exclusive (state : State ι) : Prop where
  alone :
    ∀ client other,
      (state.phase client).Holding → (state.phase other).Holding →
        client = other
  locked :
    ∀ client,
      (state.phase client).Holding → (state.world.get? lock).isSome
  seen_le : ∀ client, state.seen client ≤ state.generation
  acquiring :
    ∀ client program,
      state.phase client = .acquiring program →
        Acquiring lock ttl state client program

variable {lock ttl} {state : State ι} {client : ι}

omit [Platform] [DecidableEq ι] in
theorem exclusive_quiet (world : World) :
    Exclusive lock ttl (State.quiet world : State ι) where
  alone := fun _ _ holding => holding.elim
  locked := fun _ holding => holding.elim
  seen_le := fun _ => le_rfl
  acquiring := fun _ _ phase => by cases phase

omit [DecidableEq ι] in
theorem clock_answer (request : Call) (world : World) :
    (answer request world).2.clock = world.clock := by
  cases request with
  | list start => rfl
  | put key body => rfl
  | nowUtc => rfl
  | newUuid => rfl
  | get key =>
      simp only [answer]
      split <;> rfl
  | head key =>
      simp only [answer]
      split <;> rfl
  | putIfAbsent key body =>
      simp only [answer]
      split <;> rfl
  | delete key =>
      simp only [answer]
      split <;> rfl

omit [Platform] in
/-- Entering a phase that is not holding keeps exclusion. -/
theorem Exclusive.enter
    (exclusive : Exclusive lock ttl state)
    {phase : Phase}
    (notHolding : ¬ phase.Holding)
    (own :
      ∀ program, phase = .acquiring program →
        Acquiring lock ttl (state.enter client phase) client program) :
    Exclusive lock ttl (state.enter client phase) := by
  have before
      {other : ι}
      (holding : ((state.enter client phase).phase other).Holding) :
      (state.phase other).Holding := by
    by_cases same : other = client
    · subst same
      exact absurd (by simpa [State.enter] using holding) notHolding
    · simpa [State.enter, same] using holding
  constructor
  · intro first second left right
    exact exclusive.alone first second (before left) (before right)
  · intro other holding
    exact exclusive.locked other (before holding)
  · exact exclusive.seen_le
  · intro other program entered
    by_cases same : other = client
    · subst same
      exact own program (by simpa [State.enter] using entered)
    · have known :=
        exclusive.acquiring other program
          (by simpa [State.enter, same] using entered)
      cases known with
      | begins now same past => exact .begins now same past
      | examines now same past => exact .examines now same past
      | deletes same unheld =>
          apply Acquiring.deletes same
          intro present seen holder holding
          exact unheld present seen holder (before holding)
      | retries same => exact .retries same

/-- A call keeps exclusion if whoever holds the lock then has it there. -/
theorem Exclusive.after
    (exclusive : Exclusive lock ttl state)
    {request : Call}
    {phase : Phase}
    (wins :
      phase.Holding →
        (state.phase client).Holding ∨ state.world.get? lock = none)
    (stays :
      ∀ other,
        ((state.after lock client request phase).phase other).Holding →
          ((answer request state.world).2.get? lock).isSome)
    (own :
      ∀ program, phase = .acquiring program →
        Acquiring lock ttl (state.after lock client request phase) client
          program) :
    Exclusive lock ttl (state.after lock client request phase) := by
  have unmoved
      {other : ι}
      (different : other ≠ client) :
      (state.after lock client request phase).phase other =
        state.phase other := by
    simp [State.after, different]
  have moved :
      (state.after lock client request phase).phase client = phase := by
    simp [State.after]
  -- a new holder finds no lock, so nobody else can hold it
  have only
      {other : ι}
      (different : other ≠ client)
      (holding : (state.phase other).Holding) :
      ¬ phase.Holding := by
    intro own
    rcases wins own with held | absent
    · exact different (exclusive.alone other client holding held)
    · have present := exclusive.locked other holding
      rw [absent] at present
      cases present
  have counted :
      state.generation ≤
        (state.after lock client request phase).generation := by
    simp only [State.after, generationAfter]
    split <;> omega
  constructor
  · intro first second left right
    by_cases atFirst : first = client
    · by_cases atSecond : second = client
      · rw [atFirst, atSecond]
      · rw [unmoved atSecond] at right
        rw [atFirst, moved] at left
        exact absurd left (only atSecond right)
    · rw [unmoved atFirst] at left
      by_cases atSecond : second = client
      · rw [atSecond, moved] at right
        exact absurd right (only atFirst left)
      · rw [unmoved atSecond] at right
        exact exclusive.alone first second left right
  · exact stays
  · intro other
    have seen := exclusive.seen_le other
    have own := exclusive.seen_le client
    simp only [State.after, seenAfter] at counted ⊢
    split
    · by_cases same : other = client
      · subst same
        simpa using counted
      · simp only [Function.update_of_ne same]
        omega
    · omega
  · intro other program entered
    by_cases same : other = client
    · subst same
      rw [moved] at entered
      exact own program entered
    · rw [unmoved same] at entered
      have clock :
          (state.after lock client request phase).world.clock =
            state.world.clock :=
        clock_answer _ _
      cases exclusive.acquiring other program entered with
      | begins now same past =>
          exact .begins now same (by rw [clock]; exact past)
      | examines now same past =>
          exact .examines now same (by rw [clock]; exact past)
      | retries same => exact .retries same
      | deletes equal unheld =>
          apply Acquiring.deletes equal
          intro present seen holder holding
          have unseen :
              (state.after lock client request phase).seen other =
                state.seen other := by
            simp only [State.after, seenAfter]
            split
            · exact Function.update_of_ne same _ _
            · rfl
          rw [unseen] at seen
          have bound := exclusive.seen_le other
          -- the lock was there before, or its number has gone up
          have old : (state.world.get? lock).isSome := by
            by_contra absent
            have created :
                (state.after lock client request phase).generation =
                  state.generation + 1 := by
              simp only [State.after] at present
              simp only [Bool.not_eq_true, Option.isSome_eq_false_iff]
                at absent
              simp [State.after, generationAfter, present, absent]
            omega
          have number : state.seen other = state.generation := by
            omega
          by_cases atHolder : holder = client
          · rw [atHolder, moved] at holding
            rcases wins holding with held | absent
            · exact unheld old number client held
            · rw [absent] at old
              cases old
          · rw [unmoved atHolder] at holding
            exact unheld old number holder holding

/-! ## Single steps -/

omit [DecidableEq ι] in
theorem present_putIfAbsent (world : World) (body : Body) :
    ((answer (.putIfAbsent lock body) world).2.get? lock).isSome := by
  simp only [answer]
  cases found : world.get? lock with
  | none => simp
  | some object => simp [found]

theorem phase_of_after
    {other : ι}
    {request : Call}
    {phase : Phase}
    (holding :
      ((state.after lock client request phase).phase other).Holding) :
    (other = client ∧ phase.Holding) ∨
      (other ≠ client ∧ (state.phase other).Holding) := by
  by_cases same : other = client
  · subst same
    exact Or.inl ⟨rfl, by simpa [State.after] using holding⟩
  · exact Or.inr ⟨same, by simpa [State.after, same] using holding⟩

/-- The first try finds the lock free, or sends the client to look at it. -/
theorem Exclusive.begin
    (exclusive : Exclusive lock ttl state)
    {now : Int}
    (past : now ≤ state.world.clock) :
    Exclusive lock ttl
      (state.after lock client (.putIfAbsent lock (.text []))
        (if (state.world.get? lock).isSome then
          .acquiring (examine lock ttl now)
        else .holding)) := by
  apply exclusive.after
  · intro holding
    right
    split at holding
    · exact holding.elim
    next absent => simpa using absent
  · intro _ _
    exact present_putIfAbsent _ _
  · intro program entered
    split at entered
    · cases entered
      exact .examines now rfl (by rw [State.after, clock_answer]; exact past)
    · cases entered

/-- Whoever finds the lock stale finds that nobody holds it. -/
theorem Exclusive.examine
    (exclusive : Exclusive lock ttl state)
    (refreshed : Refreshed lock ttl state)
    {now : Int}
    (past : now ≤ state.world.clock) :
    Exclusive lock ttl
      (state.after lock client (.head lock)
        (match state.world.get? lock with
        | none => .idle
        | some object =>
            if now - object.lastModified ≤ ttl then .idle
            else .acquiring (deleteStale lock))) := by
  have world : (answer (.head lock) state.world).2 = state.world := by
    simp only [answer]
    split <;> rfl
  have notHolding :
      ¬ (match state.world.get? lock with
        | none => Phase.idle
        | some object =>
            if now - object.lastModified ≤ ttl then .idle
            else .acquiring (deleteStale lock)).Holding := by
    split
    · exact id
    · split <;> exact id
  apply exclusive.after
  · intro holding
    exact absurd holding notHolding
  · intro other holding
    rw [world]
    rcases phase_of_after holding with ⟨-, own⟩ | ⟨-, held⟩
    · exact absurd own notHolding
    · exact exclusive.locked other held
  · intro program entered
    cases found : state.world.get? lock with
    | none =>
        rw [found] at entered
        cases entered
    | some object =>
        simp only [found] at entered
        split at entered
        · cases entered
        next stale =>
            cases entered
            apply Acquiring.deletes rfl
            intro _ _ holder holding
            rcases phase_of_after holding with ⟨-, own⟩ | ⟨-, held⟩
            · simp only [if_neg stale] at own
              exact own.elim
            · have young := refreshed holder held object found
              omega

/-- A deletion of the lock that was looked at harms nobody. -/
theorem Exclusive.deleteStale
    (exclusive : Exclusive lock ttl state)
    (deletes :
      state.world.get? lock = none ∨
        state.seen client = state.generation)
    (unheld :
      (state.world.get? lock).isSome →
        state.seen client = state.generation →
          ∀ other, ¬ (state.phase other).Holding) :
    Exclusive lock ttl
      (state.after lock client (.delete lock)
        (.acquiring (Store.putIfAbsent lock (.text [])))) := by
  have nobody (other : ι) : ¬ (state.phase other).Holding := by
    intro holding
    have present := exclusive.locked other holding
    rcases deletes with absent | seen
    · rw [absent] at present
      cases present
    · exact unheld present seen other holding
  apply exclusive.after
  · intro holding
    exact holding.elim
  · intro other holding
    rcases phase_of_after holding with ⟨-, own⟩ | ⟨-, held⟩
    · exact own.elim
    · exact absurd held (nobody other)
  · intro program entered
    cases entered
    exact .retries rfl

/-- The second try either finds the lock free or gives up. -/
theorem Exclusive.retry
    (exclusive : Exclusive lock ttl state) :
    Exclusive lock ttl
      (state.after lock client (.putIfAbsent lock (.text []))
        (if (state.world.get? lock).isSome then .idle
        else .holding)) := by
  apply exclusive.after
  · intro holding
    right
    split at holding
    · exact holding.elim
    next absent => simpa using absent
  · intro _ _
    exact present_putIfAbsent _ _
  · intro program entered
    split at entered <;> cases entered

/-- A heartbeat only renews what is there, or locks out everybody. -/
theorem Exclusive.refresh
    (exclusive : Exclusive lock ttl state)
    {phase : Phase}
    (same : state.phase client = phase)
    (notAcquiring : ∀ program, phase ≠ .acquiring program) :
    Exclusive lock ttl
      (state.after lock client (.put lock (.text [])) phase) := by
  apply exclusive.after
  · intro holding
    left
    rw [same]
    exact holding
  · intro _ _
    simp [answer]
  · intro program entered
    exact absurd entered (notAcquiring program)

/-- A release takes the holder's own lock away. -/
theorem Exclusive.release
    (exclusive : Exclusive lock ttl state)
    (holding : (state.phase client).Holding) :
    Exclusive lock ttl
      (state.after lock client (.delete lock) .spent) := by
  apply exclusive.after
  · intro holding
    exact holding.elim
  · intro other held
    rcases phase_of_after held with ⟨-, own⟩ | ⟨different, held⟩
    · exact own.elim
    · exact absurd (exclusive.alone other client held holding) different
  · intro program entered
    cases entered

variable (lock ttl) in
/-- What the steps of a run must meet. -/
def Careful (state : State ι) (action : Action ι) : Prop :=
  Refreshed lock ttl state ∧ DeletesSeen lock state action

instance
    {count : Nat}
    (state : State (Fin count))
    (action : Action (Fin count)) :
    Decidable (Careful lock ttl state action) :=
  inferInstanceAs (Decidable (_ ∧ _))

theorem Exclusive.call
    {next : State ι}
    (exclusive : Exclusive lock ttl state)
    (careful : Careful lock ttl state (.call client))
    {program : Program ObjectStoreError Bool}
    (phase : state.phase client = .acquiring program)
    (stepped : step? lock ttl state (.call client) = some next) :
    Exclusive lock ttl next := by
  cases exclusive.acquiring client program phase with
  | begins now same past =>
      rw [same] at phase
      rw [step?_begin phase] at stepped
      cases stepped
      exact exclusive.begin past
  | examines now same past =>
      rw [same] at phase
      rw [step?_examine phase] at stepped
      cases stepped
      exact exclusive.examine careful.1 past
  | deletes same unheld =>
      rw [same] at phase
      rw [step?_deleteStale phase] at stepped
      cases stepped
      apply exclusive.deleteStale _ unheld
      apply careful.2
      rw [phase]
      exact rfl
  | retries same =>
      rw [same] at phase
      rw [step?_retry phase] at stepped
      cases stepped
      exact exclusive.retry

/-- Every careful step keeps exclusion. -/
theorem Exclusive.step
    {action : Action ι}
    {next : State ι}
    (exclusive : Exclusive lock ttl state)
    (careful : Careful lock ttl state action)
    (stepped : step? lock ttl state action = some next) :
    Exclusive lock ttl next := by
  cases action with
  | acquire client delay =>
      simp only [step?] at stepped
      split at stepped <;> cases stepped
      apply exclusive.enter
      · exact fun holding => holding
      · intro program entered
        cases entered
        exact .begins _ rfl (Int.sub_le_self _ (Int.natCast_nonneg _))
  | call client =>
      cases phase : state.phase client with
      | acquiring program => exact exclusive.call careful phase stepped
      | idle => simp [step?, phase] at stepped
      | holding => simp [step?, phase] at stepped
      | spent => simp [step?, phase] at stepped
  | refresh client =>
      simp only [step?] at stepped
      split at stepped <;> cases stepped
      next phase => exact exclusive.refresh phase fun _ => nofun
      next phase => exact exclusive.refresh phase fun _ => nofun
  | release client =>
      simp only [step?] at stepped
      split at stepped <;> cases stepped
      next phase =>
          apply exclusive.release
          rw [phase]
          trivial
  | drop client =>
      simp only [step?] at stepped
      split at stepped <;> cases stepped
      exact exclusive.enter (fun holding => holding) fun _ => nofun
  | giveUp client =>
      simp only [step?] at stepped
      split at stepped <;> cases stepped
      exact exclusive.enter (fun holding => holding) fun _ => nofun
  | recover client =>
      simp only [step?] at stepped
      split at stepped <;> cases stepped
      exact exclusive.enter (fun holding => holding) fun _ => nofun
  | elapse duration =>
      cases stepped
      have later :
          state.world.clock ≤ (state.world.wait duration).clock :=
        Int.le_add_of_nonneg_right (Int.natCast_nonneg duration)
      constructor
      · exact exclusive.alone
      · exact exclusive.locked
      · exact exclusive.seen_le
      · intro other program entered
        cases exclusive.acquiring other program entered with
        | begins now same past => exact .begins now same (Int.le_trans past later)
        | examines now same past =>
            exact .examines now same (Int.le_trans past later)
        | deletes same unheld => exact .deletes same unheld
        | retries same => exact .retries same

/-! ## Every run -/

/--
As long as the heartbeats keep the locks of holders fresh, and an acquisition
deletes no other lock than the one it has looked at, two clients never hold
the lock at once.
-/
theorem eq_of_holding
    {start : World}
    (reached :
      (step? lock ttl).Reaches (Careful lock ttl) (.quiet start) state)
    {first second : ι}
    (left : (state.phase first).Holding)
    (right : (state.phase second).Holding) :
    first = second := by
  have exclusive : Exclusive lock ttl state := by
    apply reached.invariant (exclusive_quiet start)
    intro state action next exclusive careful stepped
    exact exclusive.step careful stepped
  exact exclusive.alone first second left right

/-- A deletion that hits the lock of a holder makes two of them. -/
theorem exists_two_holders
    {holder : ι}
    (phase : state.phase client = .acquiring (deleteStale lock))
    (holding : (state.phase holder).Holding) :
    ∃ deleted last,
      step? lock ttl state (.call client) = some deleted ∧
        step? lock ttl deleted (.call client) = some last ∧
        holder ≠ client ∧
        (last.phase holder).Holding ∧ (last.phase client).Holding := by
  have different : holder ≠ client := by
    rintro rfl
    rw [phase] at holding
    exact holding.elim
  have gone :
      ((answer (.delete lock) state.world).2.get? lock) = none := by
    simp only [answer]
    cases found : state.world.get? lock with
    | none => exact found
    | some object => simp
  have retries :
      (state.after lock client (.delete lock)
          (.acquiring (Store.putIfAbsent lock (.text [])))).phase client =
        .acquiring (Store.putIfAbsent lock (.text [])) := by
    simp [State.after]
  refine
    ⟨_, _, step?_deleteStale phase, step?_retry retries, different, ?_, ?_⟩
  · simpa [State.after, different] using holding
  · simp only [State.after, gone]
    simp [Phase.Holding]

end Clients

/-! ## Two schedules -/

section Schedules

attribute [local instance] Platform.simple

/-- The holder of a lock dies, and two clients find the lock stale. -/
def staleForTwo : List (Action (Fin 3)) :=
  [.acquire 0 0, .call 0, .drop 0, .elapse 11,
    .acquire 1 0, .call 1, .call 1,
    .acquire 2 0, .call 2, .call 2,
    .call 1, .call 1,
    .call 2, .call 2]

/-- Without the condition both of them get the lock. -/
theorem not_eq_of_holding :
    ¬ ∀ (state : State (Fin 3)) (first second : Fin 3),
      (step? ['l'] 10).Reaches (fun state _ => Refreshed ['l'] 10 state)
          (.quiet (.empty 0)) state →
        (state.phase first).Holding → (state.phase second).Holding →
          first = second := by
  intro always
  have executed :
      ((step? ['l'] 10).execute? (fun state _ => Refreshed ['l'] 10 state)
          staleForTwo (.quiet (.empty 0))).map
        (fun state =>
          (decide (state.phase 1).Holding,
            decide (state.phase 2).Holding)) =
        some (true, true) := by
    decide +kernel
  rcases Option.map_eq_some_iff.1 executed with ⟨state, reached, known⟩
  simp only [Prod.mk.injEq, decide_eq_true_eq] at known
  have same :=
    always state 1 2 (Machine.Reaches.refl.execute reached) known.1
      known.2
  exact absurd same (by decide)

/-- The holder of a lock dies, and one of two clients recovers it. -/
def staleForOne : List (Action (Fin 3)) :=
  [.acquire 0 0, .call 0, .elapse 9, .refresh 0, .elapse 9, .refresh 0,
    .drop 0, .elapse 11,
    .acquire 1 0, .call 1, .call 1,
    .acquire 2 1, .call 2,
    .call 1, .call 1,
    .call 2]

theorem eq_of_holding_stale :
    ∃ state : State (Fin 3),
      (step? ['l'] 10).execute? (Careful ['l'] 10) staleForOne
          (.quiet (.empty 0)) = some state ∧
        (state.phase 1).Holding ∧
        ∀ other, (state.phase other).Holding → other = 1 := by
  have executed :
      ((step? ['l'] 10).execute? (Careful ['l'] 10) staleForOne
          (.quiet (.empty 0))).map
        (fun state => decide (state.phase 1).Holding) = some true := by
    decide +kernel
  rcases Option.map_eq_some_iff.1 executed with ⟨state, reached, known⟩
  have holding := of_decide_eq_true known
  refine ⟨state, reached, holding, ?_⟩
  intro other held
  exact
    eq_of_holding (Machine.Reaches.refl.execute reached) held holding

end Schedules

end GitRemoteObjectStore.LockExclusion
