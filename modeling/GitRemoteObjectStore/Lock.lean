import GitRemoteObjectStore.Gc

/-!
# The per-reference lock

The lock is the object `<prefix>/<ref>/LOCK#.lock`.  It is taken with a
conditional write; one older than its time to live is deleted and the write
is tried once more.  Every locked operation runs its work between taking and
releasing, and releases on every way out.
-/

namespace GitRemoteObjectStore

open CallProgram Prog

/-- Failures that abort a push. -/
inductive PushError where
  | store (error : ObjectStoreError)
  | git (error : GitError)
  | packchain (error : PackchainError)
deriving DecidableEq

/-- The result of one push, as reported to git. -/
inductive PushOutcome [Platform] where
  | ok (remoteRef : RefName)
  | error (remoteRef : RefName) (message : String)
deriving DecidableEq

variable [Platform]

/-- A parsed `push` command; an empty local spec deletes the reference. -/
structure PushSpec where
  force : Bool
  localSpec : Text
  remoteRef : RefName

/-- The rejection of a push that is not a fast-forward. -/
def notAncestorWireMessage (localSpec : Text) : String :=
  "\"remote ref is not ancestor of " ++ String.ofList localSpec ++ ".\"?"

/-- The refusal to delete a protected reference. -/
def deleteProtectionMessage : String :=
  "\"ref is protected. Run git-remote-object-store unprotect <url> " ++
    "<branch> to remove protection before deleting.\"?"

/-- Whole seconds of a duration, towards zero. -/
def wholeSeconds (duration : Int) : Int :=
  duration.tdiv 1000000000

/-- The rejection of an operation on a reference someone else holds. -/
def failedToAcquireMessage
    (lock : Text)
    (who : String)
    (ttl : Int) : String :=
  "\"failed to acquire ref lock at " ++ String.ofList lock ++
    ". Another client may be " ++ who ++ ". If this persists beyond " ++
    toString (wholeSeconds ttl) ++ "s, run git-remote-object-store " ++
    "doctor to inspect and optionally clear stale locks.\"?"

/-- What a success becomes when the lock could not be released. -/
def failedToReleaseMessage (lock : Text) : String :=
  "\"failed to release lock. You may need to manually remove the lock " ++
    String.ofList lock ++
    " from the server or use git-remote-object-store doctor to fix.\"?"

/-- Whether a `PROTECTED#` marker exists. -/
def isProtected
    (bucketPrefix : Option Text)
    (remoteRef : RefName) : Program ObjectStoreError Bool := do
  match ← (Store.head
      (protectedMarkerKey bucketPrefix remoteRef)).attempt with
  | .ok _ => return true
  | .error (.notFound _) => return false
  | .error error => .fail error

/-- The probe after a deletion; whatever it finds is only logged. -/
def verifyNoOrphanProtectedAfterDelete
    {ε : Type}
    (bucketPrefix : Option Text)
    (remoteRef : RefName) : Program ε Unit := do
  let _ ←
    (Store.head (protectedMarkerKey bucketPrefix remoteRef)).attempt
  return ()

/--
Take the lock, recovering a stale one; `false` on contention.  `now` is the
caller's clock from before its preparation.
-/
def acquireLock
    (lock : Text)
    (ttl now : Int) : Program ObjectStoreError Bool := do
  let created ← Store.putIfAbsent lock (.text [])
  if created then return true
  else
    match ← (Store.head lock).attempt with
    | .error (.notFound _) => return false
    | .error error => .fail error
    | .ok found =>
        if now - found.lastModified ≤ ttl then return false
        else do
          deleteIdempotent lock
          Store.putIfAbsent lock (.text [])

/-- Give the lock up, its heartbeat having stopped. -/
def releaseLock (lock : Text) : Program ObjectStoreError Unit :=
  deleteIdempotent lock

/-- Take the lock, work, release; `none` on contention. -/
def holdingLock
    {ε α : Type}
    (lock : Text)
    (ttl now : Int)
    (work : Program ε α) :
    Program ObjectStoreError
      (Option (Except ε α × Except ObjectStoreError Unit)) := do
  let acquired ← acquireLock lock ttl now
  if acquired then do
    let result ← work.attempt
    let released ← (releaseLock lock).attempt
    return some (result, released)
  else return none

/-- A failed release downgrades a success, and hides nothing else. -/
def settle
    (remoteRef : RefName)
    (lock : Text) :
    Except PushError PushOutcome →
      Except ObjectStoreError Unit → Except PushError PushOutcome
  | .ok (.ok _), .error _ =>
      .ok (.error remoteRef (failedToReleaseMessage lock))
  | result, _ => result

/-- Run the work of a push or a deletion under the reference's lock. -/
def underRefLock
    (bucketPrefix : Option Text)
    (remoteRef : RefName)
    (ttl now : Int)
    (who : String)
    (work : Program PushError PushOutcome) :
    Program PushError PushOutcome := do
  let lock := lockKey bucketPrefix remoteRef
  match ← (holdingLock lock ttl now work).mapError .store with
  | none => return .error remoteRef (failedToAcquireMessage lock who ttl)
  | some (result, released) =>
      Prog.ofExcept (settle remoteRef lock result released)

/-! ## Runs -/

variable
    (bucketPrefix : Option Text)
    (remoteRef : RefName)
    (world : World)

@[simp]
theorem run_isProtected :
    run answer (isProtected bucketPrefix remoteRef) world =
      (.ok
          (world.get? (protectedMarkerKey bucketPrefix remoteRef)).isSome,
        world) := by
  simp only [isProtected, protectedMarkerKey_eq]
  cases found :
      world.get? ((Slot.ref remoteRef .protectedMarker).key bucketPrefix) with
  | none =>
      simp [run_bind, run_attempt, Store.run_head_absent found]
  | some object =>
      simp [run_bind, run_attempt, Store.run_head_present found]

@[simp]
theorem run_verifyNoOrphanProtectedAfterDelete {ε : Type} :
    run answer
        (verifyNoOrphanProtectedAfterDelete bucketPrefix remoteRef :
          Program ε Unit) world =
      (.ok (), world) := by
  simp only [verifyNoOrphanProtectedAfterDelete, protectedMarkerKey_eq]
  cases found :
      world.get? ((Slot.ref remoteRef .protectedMarker).key bucketPrefix) with
  | none =>
      simp [run_bind, run_attempt, Store.run_head_absent found]
  | some object =>
      simp [run_bind, run_attempt, Store.run_head_present found]

/-- Whether a lock found at `lastModified` is stale. -/
def World.lockFree (ttl now : Int) (lock : Text) : Bool :=
  match world.get? lock with
  | none => true
  | some object => decide (ttl < now - object.lastModified)

theorem run_acquireLock (lock : Text) (ttl now : Int) :
    run answer (acquireLock lock ttl now) world =
      if world.lockFree ttl now lock then
        (.ok true, (world.remove lock).put lock (.text []))
      else (.ok false, world) := by
  cases found : world.get? lock with
  | none =>
      simp [acquireLock, run_bind, Store.run_putIfAbsent_absent found,
        World.lockFree, found, world.remove_of_absent lock found]
  | some object =>
      have second :
          run answer
              (do
                deleteIdempotent lock
                Store.putIfAbsent lock (.text []))
              world =
            (.ok true, (world.remove lock).put lock (.text [])) := by
        rw [run_bind_ok (run_deleteIdempotent world lock)]
        exact
          Store.run_putIfAbsent_absent
            (World.get?_remove_self world lock)
      unfold acquireLock
      rw [run_bind_ok (Store.run_putIfAbsent_present found)]
      simp only [Bool.false_eq_true, if_false, run_bind, run_attempt,
        Store.run_head_present found, World.lockFree, found]
      by_cases young : now - object.lastModified ≤ ttl
      · have notOld : decide (ttl < now - object.lastModified) = false :=
          decide_eq_false (by omega)
        rw [if_pos young, notOld]
        rfl
      · have old : decide (ttl < now - object.lastModified) = true :=
          decide_eq_true (by omega)
        rw [if_neg young, old]
        exact second

/-- The bucket once a client has taken a lock that was free. -/
def World.locked (world : World) (lock : Text) : World :=
  (world.remove lock).put lock (.text [])

/-- Work under a lock that is free is done, and the lock released. -/
theorem run_holdingLock
    {ε α : Type}
    {lock : Text}
    {ttl now : Int}
    (free : world.lockFree ttl now lock = true)
    (work : Program ε α) :
    run answer (holdingLock lock ttl now work) world =
      (.ok (some ((run answer work (world.locked lock)).1, .ok ())),
        (run answer work (world.locked lock)).2.remove lock) := by
  have acquired :
      run answer (acquireLock lock ttl now) world =
        (.ok true, world.locked lock) := by
    rw [run_acquireLock, if_pos free]
    rfl
  unfold holdingLock releaseLock
  rw [run_bind_ok acquired]
  simp only [if_true, run_bind, run_attempt, run_deleteIdempotent]
  rfl

/-- A lock somebody else has turns the work away. -/
theorem run_holdingLock_contended
    {ε α : Type}
    {lock : Text}
    {ttl now : Int}
    (taken : world.lockFree ttl now lock = false)
    (work : Program ε α) :
    run answer (holdingLock lock ttl now work) world =
      (.ok none, world) := by
  have refused :
      run answer (acquireLock lock ttl now) world =
        (.ok false, world) := by
    rw [run_acquireLock, taken]
    rfl
  unfold holdingLock
  rw [run_bind_ok refused]
  rfl

/-- Work under a lock that is free reports its own result. -/
theorem run_underRefLock
    {ttl now : Int}
    (free : world.lockFree ttl now (lockKey bucketPrefix remoteRef) = true)
    (who : String)
    (work : Program PushError PushOutcome) :
    run answer (underRefLock bucketPrefix remoteRef ttl now who work)
        world =
      ((run answer work
          (world.locked (lockKey bucketPrefix remoteRef))).1,
        (run answer work
            (world.locked (lockKey bucketPrefix remoteRef))).2.remove
          (lockKey bucketPrefix remoteRef)) := by
  unfold underRefLock
  simp only [run_bind, run_mapError, run_holdingLock world free,
    Except.mapError]
  cases
      (run answer work
        (world.locked (lockKey bucketPrefix remoteRef))).1 with
  | error error => rfl
  | ok outcome => cases outcome <;> rfl

/-- A lock somebody else has turns the operation away. -/
theorem run_underRefLock_contended
    {ttl now : Int}
    (taken :
      world.lockFree ttl now (lockKey bucketPrefix remoteRef) = false)
    (who : String)
    (work : Program PushError PushOutcome) :
    run answer (underRefLock bucketPrefix remoteRef ttl now who work)
        world =
      (.ok
          (.error remoteRef
            (failedToAcquireMessage (lockKey bucketPrefix remoteRef) who
              ttl)),
        world) := by
  unfold underRefLock
  simp only [run_bind, run_mapError, run_holdingLock_contended world taken,
    Except.mapError]
  rfl

end GitRemoteObjectStore
