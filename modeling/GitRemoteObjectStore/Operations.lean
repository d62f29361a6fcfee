import GitRemoteObjectStore.Compact

/-!
# The packchain operations on one reference

Each operation is a preparation without the lock and a task done under it.
Run for its effect only, the source's operation is its preparation followed
by its task under the reference's lock.
-/

namespace GitRemoteObjectStore.Packchain

open CallProgram Prog

variable [Platform]

/-- A command on one reference; a push of nothing deletes it. -/
inductive Operation where
  | push (repo : LocalRepo) (force : Bool) (localSpec : Text)
  | compact (scratch : Scratch) (force : Bool)
  | deleteBranch (confirmed : Bool)

/-- What an operation does once it holds the lock. -/
inductive Task where
  | push (repo : LocalRepo) (state : ReadyState)
  | delete
  | compact (scratch : Scratch)
  | deleteBranch

/-- What a compaction decides before the lock; the time it locks at. -/
def prepareCompact
    (bucketPrefix : Option Text)
    (refName : RefName)
    (force : Bool) : Program PackchainError (Option Int) := do
  match ← loadChain bucketPrefix refName with
  | none => .fail (.chainAbsent refName.text)
  | some prior =>
      match compactShortCircuit prior force with
      | some _ => return none
      | none => do
          let now ← nowUtc
          return some now

/-- What a branch deletion decides before the lock. -/
def prepareDeleteBranch
    (bucketPrefix : Option Text)
    (refName : RefName)
    (confirmed : Bool) : Program ManageError (Option Int) := do
  let listing := refListingPrefix bucketPrefix refName
  let opened ← (Store.list listing).mapError .store
  if opened.isEmpty then .fail .branchNotFound
  else do
    let initial ← (Store.list listing).mapError .store
    if entriesHaveProtectedMarker initial then .fail .protectedBranch
    else if !confirmed then return none
    else do
      let now ← nowUtc
      return some now

/-- The task a preparation has found, if any. -/
def foundTask {ε α : Type} (task : α → Option Task) :
    Except ε α → Option Task
  | .ok value => task value
  | .error _ => none

/-- The task of a prepared push. -/
def pushTask (repo : LocalRepo) : PrepareOutcome → Option Task
  | .ready state => some (.push repo state)
  | .done _ => none

/-- The preparation of an operation. -/
def prepare
    (bucketPrefix : Option Text)
    (refName : RefName) : Operation → Program Unit (Option Task)
  | .push repo force localSpec =>
      if localSpec = [] then .done (some .delete)
      else
        (preparePush bucketPrefix repo
          ⟨force, localSpec, refName⟩).attempt >>= fun outcome =>
            .done (foundTask (pushTask repo) outcome)
  | .compact scratch force =>
      (prepareCompact bucketPrefix refName force).attempt >>=
        fun outcome =>
          .done
            (foundTask (fun now => now.map fun _ => .compact scratch)
              outcome)
  | .deleteBranch confirmed =>
      (prepareDeleteBranch bucketPrefix refName confirmed).attempt >>=
        fun outcome =>
          .done
            (foundTask (fun now => now.map fun _ => .deleteBranch)
              outcome)

/-- The work of a task. -/
def work
    (bucketPrefix : Option Text)
    (refName : RefName) : Task → Program Unit Unit
  | .push repo state =>
      toEffect (performPushUnderLock bucketPrefix repo state)
  | .delete => toEffect (deleteUnderLock bucketPrefix refName)
  | .compact scratch =>
      toEffect (compactUnderLock bucketPrefix scratch refName)
  | .deleteBranch =>
      toEffect (deleteBranchUnderLock bucketPrefix refName)

/-! ## The source's operations -/

variable
    (bucketPrefix : Option Text)
    (refName : RefName)
    (ttl now : Int)

omit [Platform] in
/-- What is done with the outcome of locked work issues no calls. -/
theorem toEffect_holdingLock
    {ε ε' α β : Type}
    (lock : Text)
    (work : Program ε α)
    (convert : ObjectStoreError → ε')
    (next :
      Option (Except ε α × Except ObjectStoreError Unit) →
        Program ε' β)
    (silent : ∀ outcome, toEffect (next outcome) = .done ()) :
    toEffect ((holdingLock lock ttl now work).mapError convert >>= next) =
      toEffect (holdingLock lock ttl now (toEffect work)) := by
  rw [toEffect_bind_silent silent, toEffect_mapError]
  unfold holdingLock
  rw [toEffect_bind, toEffect_bind]
  congr 1
  funext outcome
  cases outcome with
  | error error => rfl
  | ok acquired =>
      cases acquired with
      | false => rfl
      | true =>
          simp only [if_true]
          have released
              {α : Type}
              (result : α) :
              toEffect
                  ((releaseLock lock).attempt >>= fun released =>
                    (pure (some (result, released)) :
                      Program ObjectStoreError
                        (Option
                          (α × Except ObjectStoreError Unit)))) =
                toEffect ((releaseLock lock).attempt :
                  Program ObjectStoreError
                    (Except ObjectStoreError Unit)) :=
            toEffect_bind_silent fun _ => rfl
          induction work with
          | done value =>
              exact (released (Except.ok value)).trans (released _).symm
          | fail error =>
              exact (released (Except.error error)).trans (released _).symm
          | call request rest hypothesis =>
              exact congrArg (Prog.call request) (funext hypothesis)

theorem toEffect_underRefLock
    (who : String)
    (work : Program PushError PushOutcome) :
    toEffect (underRefLock bucketPrefix refName ttl now who work) =
      toEffect
        (holdingLock (lockKey bucketPrefix refName) ttl now
          (toEffect work)) := by
  unfold underRefLock
  refine toEffect_holdingLock ttl now _ work PushError.store _ fun outcome => ?_
  cases outcome with
  | none => rfl
  | some outcome => exact toEffect_ofExcept _

/-- A push, or a deletion, is its preparation and its task. -/
theorem toEffect_pushOne
    (repo : LocalRepo)
    (force : Bool)
    (localSpec : Text) :
    toEffect
        (pushOne bucketPrefix repo ttl now
          ⟨force, localSpec, refName⟩) =
      prepare bucketPrefix refName (.push repo force localSpec) >>=
        fun found =>
          match found with
          | none => .done ()
          | some (.push repo state) =>
              toEffect
                (holdingLock (lockKey bucketPrefix state.remoteRef) ttl
                  now
                  (work bucketPrefix refName (.push repo state)))
          | some task =>
              toEffect
                (holdingLock (lockKey bucketPrefix refName) ttl now
                  (work bucketPrefix refName task)) := by
  unfold pushOne prepare
  by_cases empty : localSpec = []
  · simp only [empty, if_true, done_bind]
    exact toEffect_underRefLock _ _ _ _ _ _
  · simp only [empty, if_false, bind_assoc]
    rw [toEffect_bind]
    congr 1
    funext outcome
    cases outcome with
    | error error => rfl
    | ok prepared =>
        cases prepared with
        | done outcome => rfl
        | ready state => exact toEffect_underRefLock _ _ _ _ _ _

/-- A compaction is its preparation and its task. -/
theorem toEffect_compact
    (scratch : Scratch)
    (force : Bool) :
    toEffect (compact bucketPrefix scratch refName force ttl) =
      (prepareCompact bucketPrefix refName force).attempt >>=
        fun outcome =>
          match outcome with
          | .ok (some now) =>
              toEffect
                (holdingLock (lockKey bucketPrefix refName) ttl now
                  (work bucketPrefix refName (.compact scratch)))
          | _ => .done () := by
  unfold compact prepareCompact
  rw [toEffect_bind, attempt_bind, bind_assoc]
  congr 1
  funext outcome
  cases outcome with
  | error error => rfl
  | ok found =>
      cases found with
      | none => rfl
      | some prior =>
          simp only
          cases compactShortCircuit prior force with
          | some action => rfl
          | none =>
              refine congrArg (Prog.call Call.nowUtc) (funext fun now => ?_)
              refine toEffect_holdingLock ttl now _ _ _ _ fun outcome => ?_
              rcases outcome with _ | ⟨_ | _, _⟩ <;> rfl

/-- A branch deletion is its preparation and its task. -/
theorem toEffect_deleteBranch (confirmed : Bool) :
    toEffect (deleteBranch bucketPrefix refName confirmed ttl) =
      (prepareDeleteBranch bucketPrefix refName confirmed).attempt >>=
        fun outcome =>
          match outcome with
          | .ok (some now) =>
              toEffect
                (holdingLock (lockKey bucketPrefix refName) ttl now
                  (work bucketPrefix refName .deleteBranch))
          | _ => .done () := by
  unfold deleteBranch prepareDeleteBranch
  simp only
  rw [toEffect_bind, attempt_bind, bind_assoc]
  congr 1
  funext outcome
  cases outcome with
  | error error => rfl
  | ok opened =>
      simp only
      split
      · rfl
      · rw [toEffect_bind, attempt_bind, bind_assoc]
        congr 1
        funext outcome
        cases outcome with
        | error error => rfl
        | ok initial =>
            simp only
            split
            · rfl
            · split
              · rfl
              · refine
                  congrArg (Prog.call Call.nowUtc)
                    (funext fun now => ?_)
                refine
                  toEffect_holdingLock ttl now _ _ _ _ fun outcome => ?_
                rcases outcome with _ | ⟨_ | _, _⟩ <;> rfl

end GitRemoteObjectStore.Packchain
