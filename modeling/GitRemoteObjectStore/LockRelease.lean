import GitRemoteObjectStore.Library.Machine
import Mathlib.Data.List.Basic

/-!
# Releasing a lock while its heartbeat runs

The holder of a lock refreshes it from a task of its own.  To release the
lock, the guard signals that task to stop, waits a while for it to end, and
only then deletes the key.  The two run in parallel, and the server may apply
a write at any moment between its issue and its return; a write that is given
up on may be applied later still.
-/

namespace GitRemoteObjectStore.LockRelease

open CallProgram

/-! ## The two tasks -/

/-- Where the heartbeat task is, between two points it can be stopped at. -/
inductive Heartbeat where
  /-- Waiting for the first tick, which comes at once. -/
  | starting
  /-- At the `select!`. -/
  | waiting
  /-- The shutdown arm was polled first and found nothing. -/
  | polled
  /-- The tick arm won. -/
  | woken
  /-- The flag was read again, and was not set. -/
  | checked
  | putting (number : Nat)
  | exited
  | cancelled
deriving DecidableEq

/-- How the wait for the heartbeat ended. -/
inductive Stop where
  | joined
  | timedOut
deriving DecidableEq

/-- Where `LockGuard::release` is. -/
inductive Release where
  | holding
  | signalled
  | stopped (how : Stop)
  | deleting (how : Stop)
  | released (how : Stop)
deriving DecidableEq

/-- How the release waited, once it has. -/
def Release.how? : Release → Option Stop
  | .holding => none
  | .signalled => none
  | .stopped how => some how
  | .deleting how => some how
  | .released how => some how

/-- A store call of the guard. -/
inductive Event where
  | putIssued (number : Nat)
  | putReturned (number : Nat)
  | deleteIssued
deriving DecidableEq

/-- Who has written the lock key last. -/
inductive Writer where
  | guard
  | other
deriving DecidableEq

/-- The guard, its heartbeat, and the lock key on the server. -/
structure State where
  shutdown : Bool
  heartbeat : Heartbeat
  release : Release
  /-- The handle was told to abort. -/
  aborting : Bool
  /-- The writes issued so far. -/
  puts : Nat
  /-- The store calls so far, in order. -/
  log : List Event
  /-- The writes the server may yet apply. -/
  unsettled : List Nat
  /-- The deletion has taken effect. -/
  deleted : Bool
  lock : Option Writer
deriving DecidableEq

/-- A lock that was just acquired, its heartbeat just spawned. -/
def State.acquired : State where
  shutdown := false
  heartbeat := .starting
  release := .holding
  aborting := false
  puts := 0
  log := []
  unsettled := []
  deleted := false
  lock := some .guard

/-- What may happen next. -/
inductive Action where
  | firstTick
  /-- The shutdown arm is polled. -/
  | poll
  | tick
  /-- Neither arm was ready. -/
  | pend
  /-- The flag is read between the tick and the write. -/
  | recheck
  | issuePut
  /-- The write returns, as a success, an error or a timeout. -/
  | returnPut
  | cancel
  | signal
  | join
  | timeOut
  | issueDelete
  | returnDelete
  /-- The server applies a write of the heartbeat. -/
  | applyPut (number : Nat)
  /-- The server applies the deletion. -/
  | applyDelete
  /-- Another client writes or deletes the key. -/
  | others (lock : Option Unit)
deriving DecidableEq

/-- Whether an abort takes effect here. -/
def Heartbeat.isAwaiting : Heartbeat → Bool
  | .starting => true
  | .waiting => true
  | .putting _ => true
  | _ => false

/-- A step of the heartbeat. -/
def heartbeatStep? (state : State) : Action → Option State
  | .firstTick =>
      if state.heartbeat = .starting then
        some { state with heartbeat := .waiting }
      else none
  | .poll =>
      if state.heartbeat = .waiting then
        if state.shutdown then some { state with heartbeat := .exited }
        else some { state with heartbeat := .polled }
      else none
  | .tick =>
      if state.heartbeat = .polled then
        some { state with heartbeat := .woken }
      else none
  | .pend =>
      if state.heartbeat = .polled then
        some { state with heartbeat := .waiting }
      else none
  | .recheck =>
      if state.heartbeat = .woken then
        if state.shutdown then some { state with heartbeat := .exited }
        else some { state with heartbeat := .checked }
      else none
  | .issuePut =>
      if state.heartbeat = .checked then
        some
          { state with
            heartbeat := .putting state.puts
            puts := state.puts + 1
            log := state.log ++ [.putIssued state.puts]
            unsettled := state.puts :: state.unsettled }
      else none
  | .returnPut =>
      match state.heartbeat with
      | .putting number =>
          some
            { state with
              heartbeat := .waiting
              log := state.log ++ [.putReturned number]
              unsettled := state.unsettled.erase number }
      | _ => none
  | .cancel =>
      if state.aborting && state.heartbeat.isAwaiting then
        some { state with heartbeat := .cancelled }
      else none
  | _ => none

/-- A step of `release`. -/
def releaseStep? (state : State) : Action → Option State
  | .signal =>
      if state.release = .holding then
        some { state with release := .signalled, shutdown := true }
      else none
  | .join =>
      if state.release = .signalled ∧ state.heartbeat = .exited then
        some { state with release := .stopped .joined }
      else none
  | .timeOut =>
      if state.release = .signalled then
        some { state with release := .stopped .timedOut, aborting := true }
      else none
  | .issueDelete =>
      match state.release with
      | .stopped how =>
          some
            { state with
              release := .deleting how
              log := state.log ++ [.deleteIssued] }
      | _ => none
  | .returnDelete =>
      match state.release with
      | .deleting how => some { state with release := .released how }
      | _ => none
  | _ => none

/-- What happens on the server. -/
def serverStep? (state : State) : Action → Option State
  | .applyPut number =>
      if number ∈ state.unsettled then
        some { state with lock := some .guard }
      else none
  | .applyDelete =>
      match state.release with
      | .deleting _ => some { state with lock := none, deleted := true }
      | _ => none
  | .others lock =>
      some { state with lock := lock.map fun _ => .other }
  | _ => none

/-- A step of anybody. -/
def step? : Machine State Action := fun state action =>
  (heartbeatStep? state action).orElse fun _ =>
    (releaseStep? state action).orElse fun _ => serverStep? state action

/-! ## What every step preserves -/

/-- The write that has not returned. -/
def Heartbeat.inFlight : Heartbeat → List Nat
  | .putting number => [number]
  | _ => []

/-- Whether the deletion has been issued. -/
def Release.deletes : Release → Bool
  | .deleting _ => true
  | .released _ => true
  | _ => false

/--
Every write issued before the deletion has returned before it, and none is
issued after it.
-/
def Settled (log : List Event) : Prop :=
  ∀ before after,
    log = before ++ .deleteIssued :: after →
      (∀ number, .putIssued number ∈ before →
        .putReturned number ∈ before) ∧
      ∀ number, .putIssued number ∉ after

/-- The invariant of the two tasks. -/
structure Sound (state : State) : Prop where
  flight :
    state.heartbeat ≠ .cancelled →
      state.unsettled = state.heartbeat.inFlight
  returned :
    state.heartbeat ≠ .cancelled →
      ∀ number, .putIssued number ∈ state.log →
        .putReturned number ∈ state.log ∨
          number ∈ state.heartbeat.inFlight
  aborted :
    state.aborting = true ∨ state.heartbeat = .cancelled →
      state.release.how? = some .timedOut
  ended : state.release.how? = some .joined → state.heartbeat = .exited
  undeleted :
    state.release.deletes = false →
      .deleteIssued ∉ state.log ∧ state.deleted = false
  settled : state.release.how? = some .joined → Settled state.log
  gone :
    state.release.how? = some .joined →
      state.deleted = true → state.lock ≠ some .guard

theorem sound_acquired : Sound .acquired where
  flight := fun _ => rfl
  returned := fun _ _ issued => by simp [State.acquired] at issued
  aborted := by
    rintro (aborting | cancelled)
    · cases aborting
    · cases cancelled
  ended := nofun
  undeleted := fun _ => ⟨by simp [State.acquired], rfl⟩
  settled := nofun
  gone := nofun

/-- A heartbeat step that calls nothing. -/
theorem Sound.moved
    {state : State}
    (sound : Sound state)
    {heartbeat : Heartbeat}
    (running : state.heartbeat ≠ .exited)
    (alive : state.heartbeat ≠ .cancelled)
    (going : heartbeat ≠ .cancelled)
    (idle : state.heartbeat.inFlight = [])
    (still : heartbeat.inFlight = []) :
    Sound { state with heartbeat := heartbeat } where
  flight := fun _ => by
    rw [still]
    exact (sound.flight alive).trans idle
  returned := fun _ number issued => by
    rw [still]
    rcases sound.returned alive number issued with returned | pending
    · exact Or.inl returned
    · rw [idle] at pending
      simp at pending
  aborted := by
    rintro (aborting | cancelled)
    · exact sound.aborted (Or.inl aborting)
    · exact absurd cancelled going
  ended := fun joined => absurd (sound.ended joined) running
  undeleted := sound.undeleted
  settled := sound.settled
  gone := sound.gone

/-- What the heartbeat does keeps the invariant. -/
theorem Sound.heartbeatStep
    {state next : State}
    {action : Action}
    (sound : Sound state)
    (stepped : heartbeatStep? state action = some next) :
    Sound next := by
  cases action with
  | firstTick =>
      simp only [heartbeatStep?] at stepped
      split at stepped
      next here =>
        cases stepped
        exact sound.moved (by simp [here]) (by simp [here]) nofun
          (by simp [here, Heartbeat.inFlight]) rfl
      next => cases stepped
  | poll =>
      simp only [heartbeatStep?] at stepped
      split at stepped
      next here =>
        split at stepped
        · cases stepped
          exact sound.moved (by simp [here]) (by simp [here]) nofun
            (by simp [here, Heartbeat.inFlight]) rfl
        · cases stepped
          exact sound.moved (by simp [here]) (by simp [here]) nofun
            (by simp [here, Heartbeat.inFlight]) rfl
      next => cases stepped
  | tick =>
      simp only [heartbeatStep?] at stepped
      split at stepped
      next here =>
        cases stepped
        exact sound.moved (by simp [here]) (by simp [here]) nofun
          (by simp [here, Heartbeat.inFlight]) rfl
      next => cases stepped
  | pend =>
      simp only [heartbeatStep?] at stepped
      split at stepped
      next here =>
        cases stepped
        exact sound.moved (by simp [here]) (by simp [here]) nofun
          (by simp [here, Heartbeat.inFlight]) rfl
      next => cases stepped
  | recheck =>
      simp only [heartbeatStep?] at stepped
      split at stepped
      next here =>
        split at stepped
        · cases stepped
          exact sound.moved (by simp [here]) (by simp [here]) nofun
            (by simp [here, Heartbeat.inFlight]) rfl
        · cases stepped
          exact sound.moved (by simp [here]) (by simp [here]) nofun
            (by simp [here, Heartbeat.inFlight]) rfl
      next => cases stepped
  | issuePut =>
      simp only [heartbeatStep?] at stepped
      split at stepped
      next here =>
        cases stepped
        have alive : state.heartbeat ≠ .cancelled := by simp [here]
        have running : state.release.how? ≠ some .joined := fun joined => by
          rw [sound.ended joined] at here
          cases here
        have flight := sound.flight alive
        rw [here] at flight
        constructor
        · intro _
          show state.puts :: state.unsettled = [state.puts]
          rw [flight]
          rfl
        · intro _ number issued
          rcases List.mem_append.1 issued with before | now
          · rcases sound.returned alive number before with done | pending
            · exact Or.inl (List.mem_append_left _ done)
            · rw [here] at pending
              simp [Heartbeat.inFlight] at pending
          · right
            simpa [Heartbeat.inFlight] using now
        · rintro (aborting | cancelled)
          · exact sound.aborted (Or.inl aborting)
          · cases cancelled
        · exact fun joined => absurd joined running
        · intro holds
          have before := sound.undeleted holds
          exact ⟨by simpa using before.1, before.2⟩
        · exact fun joined => absurd joined running
        · exact fun joined => absurd joined running
      next => cases stepped
  | returnPut =>
      simp only [heartbeatStep?] at stepped
      split at stepped
      next number here =>
        cases stepped
        have alive : state.heartbeat ≠ .cancelled := by simp [here]
        have running : state.release.how? ≠ some .joined := fun joined => by
          rw [sound.ended joined] at here
          cases here
        have flight := sound.flight alive
        rw [here] at flight
        constructor
        · intro _
          show state.unsettled.erase number = []
          rw [flight]
          simp [Heartbeat.inFlight]
        · intro _ other issued
          left
          rcases List.mem_append.1 issued with before | now
          · rcases sound.returned alive other before with done | pending
            · exact List.mem_append_left _ done
            · rw [here] at pending
              obtain rfl : other = number := by
                simpa [Heartbeat.inFlight] using pending
              simp
          · simp at now
        · rintro (aborting | cancelled)
          · exact sound.aborted (Or.inl aborting)
          · cases cancelled
        · exact fun joined => absurd joined running
        · intro holds
          have before := sound.undeleted holds
          exact ⟨by simpa using before.1, before.2⟩
        · exact fun joined => absurd joined running
        · exact fun joined => absurd joined running
      next => cases stepped
  | cancel =>
      simp only [heartbeatStep?] at stepped
      split at stepped
      next here =>
        cases stepped
        have aborting : state.aborting = true := (Bool.and_eq_true_iff.1 here).1
        have timedOut := sound.aborted (Or.inl aborting)
        have running : state.release.how? ≠ some .joined := by
          rw [timedOut]
          nofun
        constructor
        · exact fun alive => absurd rfl alive
        · exact fun alive => absurd rfl alive
        · exact fun _ => timedOut
        · exact fun joined => absurd joined running
        · exact sound.undeleted
        · exact fun joined => absurd joined running
        · exact fun joined => absurd joined running
      next => cases stepped
  | _ => cases stepped

/-- A log in which the deletion comes last is settled if its writes are. -/
theorem settled_concat
    {log : List Event}
    (undeleted : .deleteIssued ∉ log)
    (returned :
      ∀ number, .putIssued number ∈ log → .putReturned number ∈ log) :
    Settled (log ++ [.deleteIssued]) := by
  intro before after split
  rcases List.append_eq_append_iff.1 split with
    ⟨middle, rfl, rest⟩ | ⟨middle, rfl, rest⟩
  · cases middle with
    | nil =>
        obtain rfl : after = [] := by simpa using rest
        rw [List.append_nil]
        exact ⟨returned, fun _ => List.not_mem_nil⟩
    | cons event others =>
        have impossible := (List.cons.inj rest).2
        simp at impossible
  · cases middle with
    | nil =>
        obtain rfl : after = [] := by simpa using rest.symm
        rw [List.append_nil] at returned
        exact ⟨returned, fun _ => List.not_mem_nil⟩
    | cons event others =>
        obtain ⟨rfl, -⟩ := List.cons.inj rest
        exact absurd (by simp) undeleted

/-- What `release` does keeps the invariant. -/
theorem Sound.releaseStep
    {state next : State}
    {action : Action}
    (sound : Sound state)
    (stepped : releaseStep? state action = some next) :
    Sound next := by
  cases action with
  | signal =>
      simp only [releaseStep?] at stepped
      split at stepped
      next here =>
        cases stepped
        refine
          ⟨sound.flight, sound.returned, fun stopping => ?_, nofun,
            fun _ => sound.undeleted (by rw [here]; rfl), nofun, nofun⟩
        have impossible := sound.aborted stopping
        rw [here] at impossible
        cases impossible
      next => cases stepped
  | join =>
      simp only [releaseStep?] at stepped
      split at stepped
      next here =>
        cases stepped
        have before := sound.undeleted (by rw [here.1]; rfl)
        refine
          ⟨sound.flight, sound.returned, fun stopping => ?_,
            fun _ => here.2, fun _ => before, fun _ => ?_, fun _ gone => ?_⟩
        · have impossible := sound.aborted stopping
          rw [here.1] at impossible
          cases impossible
        · intro first after split
          exact absurd (by rw [split]; simp) before.1
        · rw [before.2] at gone
          cases gone
      next => cases stepped
  | timeOut =>
      simp only [releaseStep?] at stepped
      split at stepped
      next here =>
        cases stepped
        exact
          ⟨sound.flight, sound.returned, fun _ => rfl, nofun,
            fun _ => sound.undeleted (by rw [here]; rfl), nofun, nofun⟩
      next => cases stepped
  | issueDelete =>
      simp only [releaseStep?] at stepped
      split at stepped
      next how here =>
        cases stepped
        have before := sound.undeleted (by rw [here]; rfl)
        refine
          ⟨sound.flight, fun alive number issued => ?_,
            fun stopping => ?_, fun joined => ?_, nofun, fun joined => ?_,
            fun _ gone => ?_⟩
        · have issued : .putIssued number ∈ state.log := by
            simpa using issued
          rcases sound.returned alive number issued with done | pending
          · exact Or.inl (List.mem_append_left _ done)
          · exact Or.inr pending
        · have stopped := sound.aborted stopping
          rw [here] at stopped
          exact stopped
        · exact sound.ended (by rw [here]; exact joined)
        · have exited := sound.ended (by rw [here]; exact joined)
          refine settled_concat before.1 fun number issued => ?_
          rcases sound.returned (by simp [exited]) number issued with
            done | pending
          · exact done
          · rw [exited] at pending
            simp [Heartbeat.inFlight] at pending
        · have impossible := before.2.symm.trans gone
          cases impossible
      next => cases stepped
  | returnDelete =>
      simp only [releaseStep?] at stepped
      split at stepped
      next how here =>
        cases stepped
        have same : state.release.how? = some how := by rw [here]; rfl
        exact
          ⟨sound.flight, sound.returned,
            fun stopping => same.symm.trans (sound.aborted stopping),
            fun joined => sound.ended (same.trans joined), nofun,
            fun joined => sound.settled (same.trans joined),
            fun joined => sound.gone (same.trans joined)⟩
      next => cases stepped
  | _ => cases stepped

/-- What the server does keeps the invariant. -/
theorem Sound.serverStep
    {state next : State}
    {action : Action}
    (sound : Sound state)
    (stepped : serverStep? state action = some next) :
    Sound next := by
  cases action with
  | applyPut number =>
      simp only [serverStep?] at stepped
      split at stepped
      next unsettled =>
        cases stepped
        refine
          ⟨sound.flight, sound.returned, sound.aborted, sound.ended,
            sound.undeleted, sound.settled, fun joined => ?_⟩
        have exited := sound.ended joined
        have nothing := sound.flight (by simp [exited])
        rw [nothing, exited] at unsettled
        simp [Heartbeat.inFlight] at unsettled
      next => cases stepped
  | applyDelete =>
      simp only [serverStep?] at stepped
      split at stepped
      next how here =>
        cases stepped
        refine
          ⟨sound.flight, sound.returned, sound.aborted, sound.ended,
            fun before => ?_, sound.settled, fun _ _ => nofun⟩
        have deletes : state.release.deletes = true := by rw [here]; rfl
        exact absurd (deletes.symm.trans before) nofun
      next => cases stepped
  | others lock =>
      cases stepped
      refine
        ⟨sound.flight, sound.returned, sound.aborted, sound.ended,
          sound.undeleted, sound.settled, fun _ _ => ?_⟩
      cases lock with
      | none => nofun
      | some _ => nofun
  | _ => cases stepped

/-- Every step keeps the invariant. -/
theorem Sound.step
    {state next : State}
    {action : Action}
    (sound : Sound state)
    (stepped : step? state action = some next) :
    Sound next := by
  unfold step? at stepped
  cases heartbeat : heartbeatStep? state action with
  | some _ =>
      rw [heartbeat] at stepped
      cases stepped
      exact sound.heartbeatStep heartbeat
  | none =>
      rw [heartbeat] at stepped
      cases release : releaseStep? state action with
      | some _ =>
          rw [release] at stepped
          cases stepped
          exact sound.releaseStep release
      | none =>
          rw [release] at stepped
          exact sound.serverStep stepped

/-! ## Whole runs -/

/--
Where the heartbeat was joined, its writes have all returned before the
deletion is issued, none is issued later, and the key the deletion has
removed is not created again by them.
-/
theorem released_not_resurrected
    {state : State}
    (reached :
      step?.Reaches (fun _ _ => True) .acquired state)
    (joined : state.release.how? = some .joined) :
    Settled state.log ∧
      state.unsettled = [] ∧
      (state.deleted = true → state.lock ≠ some .guard) := by
  have sound : Sound state :=
    reached.invariant sound_acquired fun _ _ _ before _ stepped =>
      before.step stepped
  have exited := sound.ended joined
  refine ⟨sound.settled joined, ?_, sound.gone joined⟩
  rw [sound.flight (by simp [exited]), exited]
  rfl

/-- A signal that comes while a write is on its way. -/
def lateSignal : List Action :=
  [.firstTick, .poll, .tick, .recheck, .issuePut, .signal, .applyPut 0,
    .returnPut, .poll, .join, .issueDelete, .applyDelete, .returnDelete]

/-- The state such a release ends in. -/
def lateReleased : State where
  shutdown := true
  heartbeat := .exited
  release := .released .joined
  aborting := false
  puts := 1
  log := [.putIssued 0, .putReturned 0, .deleteIssued]
  unsettled := []
  deleted := true
  lock := none

theorem released_not_resurrected_late :
    Settled lateReleased.log ∧
      lateReleased.unsettled = [] ∧
      (lateReleased.deleted = true → lateReleased.lock ≠ some .guard) := by
  have executed :
      step?.execute? (fun _ _ => True) lateSignal .acquired =
        some lateReleased := by
    decide +kernel
  exact
    released_not_resurrected (Machine.Reaches.refl.execute executed) rfl

end GitRemoteObjectStore.LockRelease
