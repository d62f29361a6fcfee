import GitRemoteObjectStore.Library.Outcomes
import GitRemoteObjectStore.Ownership
import GitRemoteObjectStore.PackBuild

/-!
# Pushes that are cut off and tried again

A push under the packchain engine may lose calls or replies, and may stop
anywhere.  What its reference shows is then what it showed before, or the
pushed chain with the old path index, or with the new one; everything else it
does not write is as it was.  Once the lock it may have left has expired, the
same push with nothing failing reports success if it would have done so in
the first place, and leaves the reference at what is pushed.
-/

namespace GitRemoteObjectStore.PushRetries

open CallProgram Prog Packchain
open Ownership (credible_faulty bucket_faulty)

/-! ## What a reference shows -/

/-- The chain of a reference and its path index. -/
structure View where
  chain : Option Body
  index : Option Body

section Views

variable [Platform] (bucketPrefix : Option Text) (refName : RefName)

/-- What a bucket has for a reference. -/
def view (world : World) : View where
  chain := world.slot? bucketPrefix (.ref refName .chain)
  index := world.slot? bucketPrefix (.ref refName .pathIndex)

/-- How far a push has come. -/
inductive Reached
    (repo : LocalRepo)
    (spec : PushSpec)
    (start : View) : View → Prop where
  | before : Reached repo spec start start
  | chained {sha : Sha} {manifest : ChainManifest}
      (resolved : repo.resolve spec.localSpec = some sha)
      (version : manifest.v = ChainManifest.schemaVersion)
      (tip : manifest.tip = sha) :
      Reached repo spec start ⟨some (.chain manifest), start.index⟩
  | indexed {sha : Sha} {manifest : ChainManifest}
      {index : Option PathIndex}
      (resolved : repo.resolve spec.localSpec = some sha)
      (version : manifest.v = ChainManifest.schemaVersion)
      (tip : manifest.tip = sha)
      (found : pathIndexOf repo sha = .ok index) :
      Reached repo spec start
        ⟨some (.chain manifest), index.map .pathIndex⟩

/-- A call that writes neither the chain nor the path index. -/
def Silent (request : Call) : Prop :=
  ¬ request.Writes ((Slot.ref refName .chain).key bucketPrefix) ∧
    ¬ request.Writes ((Slot.ref refName .pathIndex).key bucketPrefix)

variable {bucketPrefix refName}

theorem silent_reads (request : Call) (reads : request.Reads) :
    Silent bucketPrefix refName request := by
  cases request with
  | put key body => exact reads.elim
  | putIfAbsent key body => exact reads.elim
  | delete key => exact reads.elim
  | _ => exact ⟨fun writes => writes, fun writes => writes⟩

/-- Slots other than the chain's and the path index's. -/
def Beside (refName : RefName) (slot : Slot) : Prop :=
  slot ≠ .ref refName .chain ∧ slot ≠ .ref refName .pathIndex

theorem silent_of_beside
    (slot : Slot)
    (beside : Beside refName slot)
    {request : Call}
    (writes : ∀ key, request.Writes key → key = slot.key bucketPrefix) :
    Silent bucketPrefix refName request :=
  ⟨fun written => beside.1 ((Slot.key_inj _).1 (writes _ written)).symm,
    fun written => beside.2 ((Slot.key_inj _).1 (writes _ written)).symm⟩

theorem locks_silent :
    Locks bucketPrefix refName (Silent bucketPrefix refName) where
  reads := silent_reads
  lock :=
    silent_of_beside (.ref refName .lock) ⟨by simp, by simp⟩
      fun _ written => written
  unlock :=
    silent_of_beside (.ref refName .lock) ⟨by simp, by simp⟩
      fun _ written => written

theorem silent_create
    {slot : Slot}
    (beside : Beside refName slot)
    (body : Body) :
    Silent bucketPrefix refName
      (.putIfAbsent (slot.key bucketPrefix) body) :=
  silent_of_beside slot beside fun _ written => written

theorem silent_put
    {slot : Slot}
    (beside : Beside refName slot)
    (body : Body) :
    Silent bucketPrefix refName (.put (slot.key bucketPrefix) body) :=
  silent_of_beside slot beside fun _ written => written

theorem silent_upload
    {slot : Slot}
    (upload : IsUpload refName slot)
    (content : List UInt8) :
    Silent bucketPrefix refName
      (.put (slot.key bucketPrefix) (.file content)) := by
  apply silent_put
  constructor
  · rintro rfl
    exact upload
  · rintro rfl
    exact upload

theorem silent_tombstone
    (runId : Component)
    (record : BaselineTombstone) :
    Silent bucketPrefix refName
      (.put (baselineTombstoneKey (prefixText bucketPrefix) runId)
        (.baselineTombstone record)) := by
  rw [baselineTombstoneKey_eq]
  exact silent_put ⟨by simp, by simp⟩ _

/-- A silent call leaves what the reference shows. -/
theorem view_faulty
    {request : Call}
    (silent : Silent bucketPrefix refName request)
    (plan : FaultPlan Call ObjectStoreError)
    (state : World × Nat) :
    view bucketPrefix refName
        (faulty answer failed plan request state).2.1 =
      view bucketPrefix refName state.1 := by
  rcases bucket_faulty plan request state with same | effect
  · rw [same]
  · rw [effect]
    simp only [view, World.slot?, body?_answer_of_not_writes silent.1,
      body?_answer_of_not_writes silent.2]

end Views

/-! ## How far a push comes -/

section Halves

variable
    [Platform]
    {bucketPrefix : Option Text}
    {plan : FaultPlan Call ObjectStoreError}
    {repo : LocalRepo}
    {spec : PushSpec}
    {start : View}

/-- A bucket in which a push has come so far. -/
def Advanced
    (bucketPrefix : Option Text)
    (repo : LocalRepo)
    (spec : PushSpec)
    (start : View)
    (world : World) : Prop :=
  Reached repo spec start (view bucketPrefix spec.remoteRef world)

/-- The terms of a push that nobody interferes with. -/
abbrev advancing
    (bucketPrefix : Option Text)
    (repo : LocalRepo)
    (spec : PushSpec)
    (start : View) : Contract Call (World × Nat) :=
  .alone fun state => Advanced bucketPrefix repo spec start state.1

/-- What issues silent calls only leaves what the reference shows. -/
theorem safe_silent
    {ε α : Type}
    {program : Program ε α}
    (issues :
      Issues Call.Credible (Silent bucketPrefix spec.remoteRef) program)
    (state : World × Nat) :
    Safe (advancing bucketPrefix repo spec start)
      (faulty answer failed plan)
      (fun _ later =>
        view bucketPrefix spec.remoteRef later.1 =
          view bucketPrefix spec.remoteRef state.1)
      program state := by
  refine issues.safe credible_faulty ?_ ?_ rfl
  · intro request before silent reached _ same
    have still := view_faulty silent plan before
    refine ⟨⟨?_, trivial⟩, still.trans same⟩
    simpa only [Contract.alone, Advanced, still] using reached
  · rintro before later rfl same
    exact same

/-- A write goes through, or fails with or without effect. -/
theorem safe_put
    {key : Text}
    {body : Body}
    {state : World × Nat}
    {next : View}
    (arrives : Reached repo spec start next)
    (written :
      view bucketPrefix spec.remoteRef (state.1.put key body) = next) :
    Safe (advancing bucketPrefix repo spec start)
      (faulty answer failed plan)
      (whenOk fun _ later =>
        view bucketPrefix spec.remoteRef later.1 = next)
      (Store.putBytes key body) state := by
  rcases state with ⟨world, count⟩
  unfold Store.putBytes
  apply safe_faulty
  · intro _
    refine ⟨?_, ?_⟩
    · simp only [answer, Advanced, written]
      exact arrives
    · rintro _ rfl -
      exact written
  · intro fault reply later _ broke _ _ _
    cases broke
    exact fun _ _ _ => trivial

/-- A deletion goes through, or fails with or without effect. -/
theorem safe_drop
    {key : Text}
    {state : World × Nat}
    (arrives :
      Advanced bucketPrefix repo spec start (state.1.remove key)) :
    Safe (advancing bucketPrefix repo spec start)
      (faulty answer failed plan)
      (whenOk fun _ _ => True) (deleteIdempotent key) state := by
  rcases state with ⟨world, count⟩
  unfold deleteIdempotent
  apply safe_faulty
  · intro reached
    cases found : world.get? key with
    | none =>
        simp only [answer, found]
        exact ⟨reached, fun _ _ _ => trivial⟩
    | some object =>
        simp only [answer, found]
        exact ⟨arrives, fun _ _ _ => trivial⟩
  · intro fault reply later _ broke _ _ _
    cases broke
    cases fault.error <;> exact fun _ _ _ => trivial

/-- A silent program, before what is asked about in success only. -/
theorem safe_after
    {ε ε' α β : Type}
    {convert : ε' → ε}
    {program : Program ε' α}
    {next : α → Program ε β}
    {last : β → World × Nat → Prop}
    {state : World × Nat}
    (issues :
      Issues Call.Credible (Silent bucketPrefix spec.remoteRef) program)
    (resume :
      ∀ value later,
        view bucketPrefix spec.remoteRef later.1 =
            view bucketPrefix spec.remoteRef state.1 →
          Safe (advancing bucketPrefix repo spec start)
            (faulty answer failed plan) (whenOk last) (next value)
            later) :
    Safe (advancing bucketPrefix repo spec start)
      (faulty answer failed plan) (whenOk last)
      (program.mapError convert >>= next) state :=
  (safe_silent issues.mapError state).keeping fun value later _ same =>
    resume value later same

/-- Writing the index, or dropping it, is the second half of a push. -/
theorem safe_writeOrDropPathIndex
    {sha : Sha}
    {manifest : ChainManifest}
    {index : Option PathIndex}
    (resolved : repo.resolve spec.localSpec = some sha)
    (version : manifest.v = ChainManifest.schemaVersion)
    (tip : manifest.tip = sha)
    (found : pathIndexOf repo sha = .ok index)
    {state : World × Nat}
    (chained :
      state.1.slot? bucketPrefix (.ref spec.remoteRef .chain) =
        some (.chain manifest)) :
    Safe (advancing bucketPrefix repo spec start)
      (faulty answer failed plan) (whenOk fun _ _ => True)
      (writeOrDropPathIndex bucketPrefix spec.remoteRef index) state := by
  have arrives : Reached repo spec start _ :=
    .indexed resolved version tip found
  have kept :
      (Slot.ref spec.remoteRef .chain) ≠
        .ref spec.remoteRef .pathIndex := by
    simp
  unfold writeOrDropPathIndex
  cases index with
  | some index =>
      have written :
          view bucketPrefix spec.remoteRef
              (state.1.put (pathIndexKey bucketPrefix spec.remoteRef)
                (.pathIndex index)) =
            ⟨some (.chain manifest), some (.pathIndex index)⟩ := by
        rw [pathIndexKey_eq, view, slot?_put, slot?_put, if_neg kept,
          if_pos rfl, chained]
      apply Safe.convert
      apply Safe.convert
      apply (safe_put arrives written).weaken
      intro outcome _ _ _
      cases outcome <;> trivial
  | none =>
      apply Safe.convert
      apply safe_drop
      have dropped :
          view bucketPrefix spec.remoteRef
              (state.1.remove
                (pathIndexKey bucketPrefix spec.remoteRef)) =
            ⟨some (.chain manifest), none⟩ := by
        rw [pathIndexKey_eq, view, slot?_remove, slot?_remove,
          if_neg kept, if_pos rfl, chained]
      rw [Advanced, dropped]
      exact arrives

/-- The writes of a push go through the two halves in order. -/
theorem safe_commitPush
    {ready : ReadyState}
    (own : ready.remoteRef = spec.remoteRef)
    (resolved : repo.resolve spec.localSpec = some ready.localSha)
    {index : Option PathIndex}
    (found : pathIndexOf repo ready.localSha = .ok index)
    {state : World × Nat}
    (before : view bucketPrefix spec.remoteRef state.1 = start) :
    Safe (advancing bucketPrefix repo spec start)
      (faulty answer failed plan) (whenOk fun _ _ => True)
      (commitPush bucketPrefix ready index) state := by
  have version :
      (committedManifest ready).v = ChainManifest.schemaVersion :=
    nextManifest_v _ _ _ _
  have tip : (committedManifest ready).tip = ready.localSha :=
    nextManifest_tip _ _ _ _
  have creating
      {slot : Slot}
      (beside : Beside spec.remoteRef slot)
      (body : Body) :
      Issues Call.Credible (Silent bucketPrefix spec.remoteRef)
        (Store.putIfAbsent (slot.key bucketPrefix) body) :=
    issues_request (silent_create beside body) (by simp)
  unfold commitPush
  rw [formatKey_eq, headKey_eq, own]
  apply safe_after (creating ⟨by simp, by simp⟩ _)
  intro _ formatted sameFormat
  apply safe_after (creating ⟨by simp, by simp⟩ _)
  intro _ headed sameHead
  have untouched : view bucketPrefix spec.remoteRef headed.1 = start :=
    (sameHead.trans sameFormat).trans before
  have written :
      view bucketPrefix spec.remoteRef
          (headed.1.put (chainKey bucketPrefix spec.remoteRef)
            (.chain (committedManifest ready))) =
        ⟨some (.chain (committedManifest ready)), start.index⟩ := by
    have other :
        (Slot.ref spec.remoteRef .pathIndex) ≠
          .ref spec.remoteRef .chain := by
      simp
    rw [← untouched, chainKey_eq, view, slot?_put, slot?_put, if_pos rfl,
      if_neg other, view]
  apply
    (safe_put (.chained resolved version tip) written).convert.convert
      |>.andThen
  intro _ chained _ arrived
  apply
    (safe_writeOrDropPathIndex resolved version tip found
      (congrArg View.chain arrived)).andThen
  intro _ indexed _ _
  split
  · refine
      (safe_silent
        (issues_forcePushBaselineCleanup silent_reads _ _ _ _
          silent_tombstone)
        indexed).keeping fun _ _ _ _ => safe_end
  · exact safe_end

/-- The locked section of a push. -/
theorem safe_performPushUnderLock
    {ready : ReadyState}
    (own : ready.remoteRef = spec.remoteRef)
    (resolved : repo.resolve spec.localSpec = some ready.localSha)
    {state : World × Nat}
    (before : view bucketPrefix spec.remoteRef state.1 = start) :
    Safe (advancing bucketPrefix repo spec start)
      (faulty answer failed plan) (whenOk fun _ _ => True)
      (performPushUnderLock bucketPrefix repo ready) state := by
  unfold performPushUnderLock
  rw [own]
  apply safe_after (issues_loadChain silent_reads _ _)
  intro current read sameRead
  apply
    (safe_silent (issues_forceRefused silent_reads _ _ _ _) read).keeping
  intro refused checked _ sameChecked
  split
  · exact safe_end
  split
  · exact safe_end
  apply Safe.checkAs
  intro index found
  exact
    safe_commitPush own resolved found
      ((sameChecked.trans sameRead).trans before)

/-- What a push prepares is what its name resolves to. -/
theorem returns_resolved
    (bucketPrefix : Option Text)
    (repo : LocalRepo)
    (spec : PushSpec) :
    Returns Call.Credible
      (fun prepared =>
        ∀ ready, prepared = .ready ready →
          ready.remoteRef = spec.remoteRef ∧
            repo.resolve spec.localSpec = some ready.localSha)
      (preparePush bucketPrefix repo spec) := by
  unfold preparePush
  apply Returns.after
  intro prior
  apply (returns_ofExcept fun _ found => found).bind
  intro probe probed
  cases probe with
  | error refusal =>
      intro ready same
      cases same
  | ok found =>
      have git := localGitWorkPackchain_ok.1 probed
      simp only
      split
      · intro ready same
        cases same
      · apply Returns.after
        intro built
        apply Returns.after
        intro _ ready same
        cases same
        exact ⟨rfl, git.resolved⟩

/-- Taking the lock and releasing it is silent. -/
theorem safe_underRefLock
    {work : Program PushError PushOutcome}
    {state : World × Nat}
    (ttl now : Int)
    (who : String)
    (working :
      ∀ locked : World × Nat,
        view bucketPrefix spec.remoteRef locked.1 =
            view bucketPrefix spec.remoteRef state.1 →
          Safe (advancing bucketPrefix repo spec start)
            (faulty answer failed plan) (whenOk fun _ _ => True) work
            locked) :
    Safe (advancing bucketPrefix repo spec start)
      (faulty answer failed plan) (whenOk fun _ _ => True)
      (underRefLock bucketPrefix spec.remoteRef ttl now who work)
      state := by
  have releasing :
      Issues Call.Credible (Silent bucketPrefix spec.remoteRef)
        (releaseLock (lockKey bucketPrefix spec.remoteRef)) := by
    apply issues_deleteIdempotent
    rw [lockKey_eq]
    exact locks_silent.unlock
  have holding :
      Safe (advancing bucketPrefix repo spec start)
        (faulty answer failed plan) (whenOk fun _ _ => True)
        (holdingLock (lockKey bucketPrefix spec.remoteRef) ttl now work)
        state := by
    unfold holdingLock
    apply
      (safe_silent (locks_silent.issues_acquireLock ttl now)
        state).keeping
    intro acquired locked _ same
    split
    · apply (working locked same).attempt.andThen
      intro result worked _ _
      apply (safe_silent releasing worked).attempt.andThen
      intro _ _ _ _
      exact safe_end
    · exact safe_end
  unfold underRefLock
  apply holding.convert.andThen
  intro held _ _ _
  cases held with
  | none => exact safe_end
  | some ended =>
      apply safe_ofExcept
      intro _ _ _
      cases settle spec.remoteRef _ ended.1 ended.2 <;> trivial

/-- A push comes so far at most, whatever fails. -/
theorem safe_pushOne
    (named : spec.localSpec ≠ [])
    (ttl now : Int)
    {state : World × Nat}
    (before : view bucketPrefix spec.remoteRef state.1 = start) :
    Safe (advancing bucketPrefix repo spec start)
      (faulty answer failed plan) (whenOk fun _ _ => True)
      (pushOne bucketPrefix repo ttl now spec) state := by
  rw [pushOne_named repo ttl now named]
  have preparing :
      Safe (advancing bucketPrefix repo spec start)
        (faulty answer failed plan)
        (whenOk fun prepared later =>
          (∀ ready, prepared = .ready ready →
            ready.remoteRef = spec.remoteRef ∧
              repo.resolve spec.localSpec = some ready.localSha) ∧
            view bucketPrefix spec.remoteRef later.1 = start)
        (preparePush bucketPrefix repo spec) state := by
    apply
      Issues.safeReturning credible_faulty ?_ ?_
        (issues_preparePush silent_reads
          (fun slot content upload => silent_upload upload content)
          repo spec.force spec.localSpec)
        (returns_resolved bucketPrefix repo spec) before
    · intro request state silent reached _ same
      have still := view_faulty silent plan state
      refine ⟨⟨?_, trivial⟩, still.trans same⟩
      simpa only [Contract.alone, Advanced, still] using reached
    · rintro state later rfl same
      exact same
  apply preparing.andThen
  rintro prepared middle - ⟨known, same⟩
  cases prepared with
  | done outcome => exact safe_end
  | ready ready =>
      rcases known ready rfl with ⟨own, resolved⟩
      simp only [own]
      apply safe_underRefLock
      intro locked still
      exact
        safe_performPushUnderLock own resolved (still.trans same)

end Halves

/-! ## Wherever a push stops -/

section Stops

variable
    [Platform]
    {bucketPrefix : Option Text}
    {spec : PushSpec}

/-- A push that stops after some calls, any of which may fail. -/
def cutOff
    (bucketPrefix : Option Text)
    (plan : FaultPlan Call ObjectStoreError)
    (repo : LocalRepo)
    (ttl now : Int)
    (spec : PushSpec)
    (count : Nat)
    (world : World) : World :=
  (stateAfter (faulty answer failed plan) count
    (pushOne bucketPrefix repo ttl now spec) (world, 0)).1

/-- A push may be asked to leave what it does not write. -/
theorem permits_beside
    {slot : Slot}
    (aside : ¬ slot.TouchedBy .packchain spec.remoteRef) :
    Permits bucketPrefix spec.remoteRef .packchain
      (fun request => ¬ request.Writes (slot.key bucketPrefix)) := by
  apply permits_aside
  intro other touched same
  obtain rfl := (Slot.key_inj _).1 same
  exact aside touched

/-- What a push does not write is as it was. -/
theorem get?_cutOff
    (named : spec.localSpec ≠ [])
    (plan : FaultPlan Call ObjectStoreError)
    (repo : LocalRepo)
    (ttl now : Int)
    (count : Nat)
    (world : World)
    {slot : Slot}
    (aside : ¬ slot.TouchedBy .packchain spec.remoteRef) :
    (cutOff bucketPrefix plan repo ttl now spec count world).get?
        (slot.key bucketPrefix) =
      world.get? (slot.key bucketPrefix) := by
  have issues :=
    issues_pushOne
      (@permits_beside _ bucketPrefix spec slot aside) repo ttl now
      spec.force named
  have safe :
      Safe
        (.alone fun state : World × Nat =>
          state.1.get? (slot.key bucketPrefix) =
            world.get? (slot.key bucketPrefix))
        (faulty answer failed plan) (fun _ _ => True)
        (pushOne bucketPrefix repo ttl now spec) (world, 0) := by
    refine issues.safe credible_faulty ?_ (fun _ _ _ _ => trivial) trivial
    intro request state silent same _ _
    refine ⟨⟨?_, trivial⟩, trivial⟩
    rcases bucket_faulty plan request state with still | effect
    · simp only [Contract.alone, still]
      exact same
    · simp only [Contract.alone, effect,
        get?_answer_of_not_writes silent]
      exact same
  exact safe.throughout (fun _ _ => trivial) rfl count

/--
Whatever fails, and wherever a push stops: its reference shows what it
showed, or the pushed chain, and the pushed path index only with the pushed
chain; what the push does not write is as it was.
-/
theorem cut_off
    (named : spec.localSpec ≠ [])
    (plan : FaultPlan Call ObjectStoreError)
    (repo : LocalRepo)
    (ttl now : Int)
    (count : Nat)
    (world : World) :
    Reached repo spec (view bucketPrefix spec.remoteRef world)
        (view bucketPrefix spec.remoteRef
          (cutOff bucketPrefix plan repo ttl now spec count world)) ∧
      ∀ slot : Slot,
        ¬ slot.TouchedBy .packchain spec.remoteRef →
          (cutOff bucketPrefix plan repo ttl now spec count world).get?
              (slot.key bucketPrefix) =
            world.get? (slot.key bucketPrefix) := by
  constructor
  · have safe :=
      @safe_pushOne _ bucketPrefix plan repo spec _ named ttl now
        (world, 0) rfl
    exact safe.throughout (fun _ _ => trivial) .before count
  · intro slot aside
    exact get?_cutOff named plan repo ttl now count world aside

end Stops

/-! ## Trying again -/

section Retries

variable
    [Platform]
    {bucketPrefix : Option Text}
    {repo : LocalRepo}
    {spec : PushSpec}

/-- Uploads leave every other object. -/
theorem get?_uploaded
    (remoteRef : RefName)
    (localSha : Sha)
    (built : BuiltPack × Option (List UInt8))
    (world : World)
    {slot : Slot}
    (stored : ¬ IsUpload remoteRef slot) :
    (uploaded bucketPrefix remoteRef localSha built world).get?
        (slot.key bucketPrefix) =
      world.get? (slot.key bucketPrefix) := by
  have issues :
      Issues Call.Credible
        (fun request => ¬ request.Writes (slot.key bucketPrefix))
        (uploadPackIdxBaseline bucketPrefix remoteRef localSha built.1
          built.2) := by
    apply issues_uploadPackIdxBaseline
    intro other content upload same
    obtain rfl := (Slot.key_inj _).1 same
    exact stored upload
  have kept := get?_run_of_issues issues world
  rw [run_uploadPackIdxBaseline] at kept
  exact kept

/-- Uploads and the lock leave every other object. -/
theorem get?_readied
    (remoteRef : RefName)
    (localSha : Sha)
    (built : BuiltPack × Option (List UInt8))
    (world : World)
    {slot : Slot}
    (stored : ¬ IsUpload remoteRef slot)
    (unlocked : slot ≠ .ref remoteRef .lock) :
    ((uploaded bucketPrefix remoteRef localSha built world).locked
          (lockKey bucketPrefix remoteRef)).get?
        (slot.key bucketPrefix) =
      world.get? (slot.key bucketPrefix) := by
  have noLock :
      slot.key bucketPrefix ≠
        (Slot.ref remoteRef .lock).key bucketPrefix :=
    fun same => unlocked ((Slot.key_inj _).1 same)
  unfold World.locked
  rw [lockKey_eq, World.get?_put_ne _ _ _ noLock,
    World.get?_remove_ne _ _ noLock]
  exact get?_uploaded remoteRef localSha built world stored

theorem lockFree_uploaded
    (remoteRef : RefName)
    (localSha : Sha)
    (built : BuiltPack × Option (List UInt8))
    (world : World)
    (ttl now : Int) :
    (uploaded bucketPrefix remoteRef localSha built world).lockFree ttl
        now (lockKey bucketPrefix remoteRef) =
      world.lockFree ttl now (lockKey bucketPrefix remoteRef) := by
  have kept :=
    @get?_uploaded _ bucketPrefix remoteRef localSha built world
      (.ref remoteRef .lock) id
  unfold World.lockFree
  rw [lockKey_eq, kept]

/-- What a push may be asked again for. -/
def Repeatable
    (bucketPrefix : Option Text)
    (repo : LocalRepo)
    (spec : PushSpec)
    (world : World) : Prop :=
  (∀ sha, repo.resolve spec.localSpec = some sha →
    ∃ commit tags, repo.peelTagChain sha = .ok (.commit commit tags)) ∨
    spec.force = true ∧
      world.get? (protectedMarkerKey bucketPrefix spec.remoteRef) = none

/-- The git work of a push succeeds again once its tip is what it pushes. -/
theorem gitReady_again
    {world : World}
    (repeatable : Repeatable bucketPrefix repo spec world)
    {priorTip : Option Sha}
    {found : LocalGit}
    (git : GitReady repo spec.localSpec priorTip spec.force found) :
    ∃ priorCommit,
      GitReady repo spec.localSpec (some found.localSha) spec.force
        { found with priorCommit := priorCommit } := by
  have prior :
      ∃ priorCommit,
        priorCommitOf repo (PeeledTip.commit? found.peeled)
            (some found.localSha) spec.force =
          .ok (.ok priorCommit) := by
    unfold priorCommitOf
    cases peeled : found.peeled with
    | commit commit tags =>
        have peels := git.peeled
        rw [peeled] at peels
        simp only [PeeledTip.commit?, peels, LocalRepo.isAncestor_self]
        cases spec.force with
        | true => exact ⟨none, rfl⟩
        | false => exact ⟨some commit, rfl⟩
    | tree tree tags =>
        rcases repeatable with commits | ⟨forced, -⟩
        · rcases commits _ git.resolved with ⟨commit, tags', peels⟩
          rw [git.peeled, peeled] at peels
          cases peels
        · exact ⟨none, by simp [PeeledTip.commit?, forced]⟩
    | blob blob tags =>
        rcases repeatable with commits | ⟨forced, -⟩
        · rcases commits _ git.resolved with ⟨commit, tags', peels⟩
          rw [git.peeled, peeled] at peels
          cases peels
        · exact ⟨none, by simp [PeeledTip.commit?, forced]⟩
  rcases prior with ⟨priorCommit, answered⟩
  exact
    ⟨priorCommit,
      { opened := git.opened
        resolved := git.resolved
        peeled := git.peeled
        prior := answered
        deep := git.deep }⟩

/-- A push of what its reference is at is not refused. -/
theorem refusal_again
    {world : World}
    (repeatable : Repeatable bucketPrefix repo spec world)
    {priorTip : Option Sha}
    {found : LocalGit}
    (git : GitReady repo spec.localSpec priorTip spec.force found)
    {ready : ReadyState}
    (own : ready.remoteRef = spec.remoteRef)
    (localSha : ready.localSha = found.localSha)
    {chain : ChainManifest}
    (tip : chain.tip = found.localSha)
    {later : World}
    (marker :
      later.get? (protectedMarkerKey bucketPrefix spec.remoteRef) =
        world.get? (protectedMarkerKey bucketPrefix spec.remoteRef)) :
    refusal bucketPrefix repo ready (some chain) later = .ok false := by
  unfold refusal
  rw [own, marker]
  rcases repeatable with commits | ⟨-, unmarked⟩
  · rcases commits _ git.resolved with ⟨commit, tags, peels⟩
    have descends :
        currentTipIsAncestorOfLocal repo chain.tip ready.localSha =
          .ok true := by
      unfold currentTipIsAncestorOfLocal
      simp [git.opened, tip, localSha, peels, Bind.bind, Except.bind,
        Except.mapError]
    split
    next current same =>
        cases same
        rw [descends]
        rfl
    · rfl
  · rw [unmarked]
    simp

theorem slot?_of_get?
    {world later : World}
    {slot : Slot}
    (same :
      later.get? (slot.key bucketPrefix) =
        world.get? (slot.key bucketPrefix)) :
    later.slot? bucketPrefix slot = world.slot? bucketPrefix slot := by
  unfold World.slot? World.body?
  rw [same]

/-- The chain and the marker are what they are before the uploads. -/
theorem accepts_readied_iff
    {ready : ReadyState}
    (own : ready.remoteRef = spec.remoteRef)
    (built : BuiltPack × Option (List UInt8))
    {localSha : Sha}
    {index : Option PathIndex}
    {world : World} :
    Accepts bucketPrefix repo ready index
        ((uploaded bucketPrefix spec.remoteRef localSha built
            world).locked
          (lockKey bucketPrefix spec.remoteRef)) ↔
      Accepts bucketPrefix repo ready index world := by
  have chain :=
    slot?_of_get?
      (@get?_readied _ bucketPrefix spec.remoteRef localSha built world
        (.ref spec.remoteRef .chain) id (by simp))
  have marker :=
    @get?_readied _ bucketPrefix spec.remoteRef localSha built world
      (.ref spec.remoteRef .protectedMarker) id (by simp)
  unfold World.slot? at chain
  unfold Accepts refusal
  rw [own, chainKey_eq, protectedMarkerKey_eq, chain, marker]

/-- A push that would succeed still does if its reference is as it was. -/
theorem succeeds_unchanged
    {ttl now now' : Int}
    {world later : World}
    {prior : Option ChainManifest}
    {found : LocalGit}
    {built : BuiltPack × Option (List UInt8)}
    {index : Option PathIndex}
    (succeeds :
      Succeeds bucketPrefix repo ttl now spec world prior found built
        index)
    (same :
      view bucketPrefix spec.remoteRef later =
        view bucketPrefix spec.remoteRef world)
    (marker :
      later.get? (protectedMarkerKey bucketPrefix spec.remoteRef) =
        world.get? (protectedMarkerKey bucketPrefix spec.remoteRef))
    (free :
      later.lockFree ttl now' (lockKey bucketPrefix spec.remoteRef) =
        true) :
    Succeeds bucketPrefix repo ttl now' spec later prior found built
      index := by
  have chain :
      later.body? (chainKey bucketPrefix spec.remoteRef) =
        world.body? (chainKey bucketPrefix spec.remoteRef) := by
    rw [chainKey_eq]
    exact congrArg View.chain same
  have accepts := (accepts_readied_iff rfl built).1 succeeds.accepts
  refine
    ⟨⟨succeeds.probed.named, ?_, succeeds.probed.git⟩, succeeds.behind,
      succeeds.builds, ?_, (accepts_readied_iff rfl built).2 ?_⟩
  · rw [chain]
    exact succeeds.probed.loaded
  · rw [lockFree_uploaded]
    exact free
  · unfold Accepts refusal at accepts ⊢
    simp only [readyState] at accepts ⊢
    rw [chain, marker]
    exact accepts

/-- A forced push succeeds again once its tip is what it pushes. -/
theorem succeeds_again
    {ttl now now' : Int}
    {world later : World}
    (forced : spec.force = true)
    (repeatable : Repeatable bucketPrefix repo spec world)
    {prior : Option ChainManifest}
    {found : LocalGit}
    {built : BuiltPack × Option (List UInt8)}
    {index : Option PathIndex}
    (succeeds :
      Succeeds bucketPrefix repo ttl now spec world prior found built
        index)
    {chain : ChainManifest}
    (stored : later.chain? bucketPrefix spec.remoteRef = some chain)
    (tip : chain.tip = found.localSha)
    (marker :
      later.get? (protectedMarkerKey bucketPrefix spec.remoteRef) =
        world.get? (protectedMarkerKey bucketPrefix spec.remoteRef))
    (free :
      later.lockFree ttl now' (lockKey bucketPrefix spec.remoteRef) =
        true) :
    ∃ priorCommit,
      Succeeds bucketPrefix repo ttl now' spec later (some chain)
        { found with priorCommit := priorCommit } built index := by
  rcases gitReady_again repeatable succeeds.probed.git with
    ⟨priorCommit, git⟩
  have loaded := loadedChain_of_chain? _ _ stored
  refine
    ⟨priorCommit,
      ⟨succeeds.probed.named, loaded, ?_⟩, ?_, ?_, ?_,
      (accepts_readied_iff rfl built).2
        ⟨some chain, loaded, ?_, ?_, ?_⟩⟩
  · rw [Option.map_some, tip]
    exact git
  · rintro ⟨unforced, -⟩
    rw [forced] at unforced
    cases unforced
  · have builds := succeeds.builds
    unfold buildFor at builds ⊢
    rw [forced] at builds ⊢
    exact builds
  · rw [lockFree_uploaded]
    exact free
  · exact
      refusal_again repeatable succeeds.probed.git rfl rfl tip marker
  · intro unforced
    simp only [readyState, forced] at unforced
    cases unforced
  · exact succeeds.accepts.pathIndex

/-- A push that is not forced finds nothing to do at its own tip. -/
theorem run_pushOne_upToDate
    {ttl now : Int}
    {world : World}
    {prior : Option ChainManifest}
    {found : LocalGit}
    (probed : Probed bucketPrefix repo spec world prior found)
    (upToDate : UpToDate spec prior found) :
    run answer (pushOne bucketPrefix repo ttl now spec) world =
      (.ok (.ok spec.remoteRef), world) := by
  have prepares := probed.run
  rw [if_pos upToDate] at prepares
  rw [pushOne_named repo ttl now probed.named, run_bind_ok prepares]
  rfl

theorem slot?_pushed_pathIndex
    (ready : ReadyState)
    (built : BuiltPack × Option (List UInt8))
    (index : Option PathIndex)
    (world : World) :
    (pushed bucketPrefix ready built index world).slot? bucketPrefix
        (.ref ready.remoteRef .pathIndex) =
      index.map .pathIndex := by
  unfold pushed
  rw [lockKey_eq, slot?_remove, if_neg (by simp)]
  unfold committed
  rw [slot?_cleaned (by simp)]
  unfold indexed
  rw [pathIndexKey_eq]
  cases index with
  | some index => rw [slot?_put, if_pos rfl, Option.map_some]
  | none => rw [slot?_remove, if_pos rfl, Option.map_none]

/-- What a push that was tried again leaves. -/
structure Converged
    (bucketPrefix : Option Text)
    (repo : LocalRepo)
    (spec : PushSpec)
    (before later : World)
    (sha : Sha) : Prop where
  resolved : repo.resolve spec.localSpec = some sha
  tip :
    ∃ chain,
      later.chain? bucketPrefix spec.remoteRef = some chain ∧
        chain.tip = sha
  /-- A retry that finds its tip there leaves the path index alone. -/
  index :
    (∃ index,
      pathIndexOf repo sha = .ok index ∧
        later.slot? bucketPrefix (.ref spec.remoteRef .pathIndex) =
          index.map .pathIndex) ∨
      spec.force = false ∧ later = before

/-- A push that succeeds leaves what it should. -/
theorem Converged.of_succeeds
    {ttl now : Int}
    {world : World}
    {prior : Option ChainManifest}
    {found : LocalGit}
    {built : BuiltPack × Option (List UInt8)}
    {index : Option PathIndex}
    (succeeds :
      Succeeds bucketPrefix repo ttl now spec world prior found built
        index) :
    Converged bucketPrefix repo spec world
      (pushed bucketPrefix (readyState spec prior found built.1) built
        index world)
      found.localSha where
  resolved := succeeds.probed.git.resolved
  tip :=
    ⟨_, chain?_pushed (readyState spec prior found built.1) built index
      world, nextManifest_tip _ _ _ _⟩
  index :=
    Or.inl
      ⟨index, succeeds.accepts.pathIndex,
        slot?_pushed_pathIndex (readyState spec prior found built.1)
          built index world⟩

/--
A push that would have succeeded, was cut off anywhere and is tried again
once its lock has expired reports success and leaves its reference at what
is pushed.
-/
theorem retried
    {ttl now : Int}
    (named : spec.localSpec ≠ [])
    {world : World}
    (repeatable : Repeatable bucketPrefix repo spec world)
    (reported :
      (run answer (pushOne bucketPrefix repo ttl now spec) world).1 =
        .ok (.ok spec.remoteRef))
    (plan : FaultPlan Call ObjectStoreError)
    (count : Nat)
    {now' : Int}
    (expired :
      (cutOff bucketPrefix plan repo ttl now spec count world).lockFree
          ttl now' (lockKey bucketPrefix spec.remoteRef) =
        true) :
    ∃ later sha,
      run answer (pushOne bucketPrefix repo ttl now' spec)
          (cutOff bucketPrefix plan repo ttl now spec count world) =
        (.ok (.ok spec.remoteRef), later) ∧
      Converged bucketPrefix repo spec
        (cutOff bucketPrefix plan repo ttl now spec count world) later
        sha ∧
      ∀ slot : Slot,
        ¬ slot.TouchedBy .packchain spec.remoteRef →
          later.get? (slot.key bucketPrefix) =
            world.get? (slot.key bucketPrefix) := by
  have stopped := @cut_off _ bucketPrefix spec named plan repo ttl now
    count world
  generalize
    cutOff bucketPrefix plan repo ttl now spec count world = middle
      at stopped expired ⊢
  rcases stopped with ⟨reached, aside⟩
  have marker :
      middle.get? (protectedMarkerKey bucketPrefix spec.remoteRef) =
        world.get? (protectedMarkerKey bucketPrefix spec.remoteRef) := by
    rw [protectedMarkerKey_eq]
    apply aside
    rintro (written | same | same | same)
    · exact written
    all_goals cases same
  suffices converges :
      ∃ later sha,
        run answer (pushOne bucketPrefix repo ttl now' spec) middle =
            (.ok (.ok spec.remoteRef), later) ∧
          Converged bucketPrefix repo spec middle later sha by
    rcases converges with ⟨later, sha, ran, converged⟩
    refine ⟨later, sha, ran, converged, ?_⟩
    intro slot untouched
    rw [← aside slot untouched]
    have kept :=
      get?_run_of_issues
        (issues_pushOne
          (@permits_beside _ bucketPrefix spec slot untouched) repo ttl
          now' spec.force named)
        middle
    rw [ran] at kept
    exact kept
  rcases succeeds_of_run named reported with ⟨prior, found, probed, goes⟩
  -- The retry of a push whose tip is there already.
  have again
      {sha : Sha}
      {manifest : ChainManifest}
      (resolved : repo.resolve spec.localSpec = some sha)
      (version : manifest.v = ChainManifest.schemaVersion)
      (tip : manifest.tip = sha)
      (chain :
        (view bucketPrefix spec.remoteRef middle).chain =
          some (.chain manifest)) :
      ∃ later sha,
        run answer (pushOne bucketPrefix repo ttl now' spec) middle =
            (.ok (.ok spec.remoteRef), later) ∧
          Converged bucketPrefix repo spec middle later sha := by
    have same : sha = found.localSha := by
      rw [probed.git.resolved] at resolved
      exact (Option.some.inj resolved).symm
    subst same
    have stored :
        middle.chain? bucketPrefix spec.remoteRef = some manifest := by
      rw [World.chain?_eq_some_iff, chainKey_eq]
      exact ⟨chain, version⟩
    cases forced : spec.force with
    | true =>
        rcases goes with ⟨unforced, -⟩ | ⟨built, index, succeeds⟩
        · rw [forced] at unforced
          cases unforced
        · rcases
            succeeds_again forced repeatable succeeds stored tip marker
              expired with ⟨priorCommit, succeeds'⟩
          exact
            ⟨_, _, succeeds'.run, Converged.of_succeeds succeeds'⟩
    | false =>
        rcases gitReady_again repeatable probed.git with
          ⟨priorCommit, git⟩
        have loaded := loadedChain_of_chain? _ _ stored
        have probed' :
            Probed bucketPrefix repo spec middle (some manifest)
              { found with priorCommit := priorCommit } := by
          refine ⟨named, loaded, ?_⟩
          rw [Option.map_some, tip]
          exact git
        refine
          ⟨middle, _,
            run_pushOne_upToDate probed' ⟨forced, ?_⟩,
            git.resolved, ⟨manifest, stored, tip⟩, Or.inr ⟨forced, rfl⟩⟩
        rw [Option.map_some, tip]
  generalize viewed :
    view bucketPrefix spec.remoteRef middle = seen at reached
  cases reached with
  | before =>
      rcases goes with upToDate | ⟨built, index, succeeds⟩
      · have chain :
            middle.body? (chainKey bucketPrefix spec.remoteRef) =
              world.body? (chainKey bucketPrefix spec.remoteRef) := by
          rw [chainKey_eq]
          exact congrArg View.chain viewed
        have loaded := probed.loaded
        rw [← chain] at loaded
        rcases Option.map_eq_some_iff.1 upToDate.2 with
          ⟨manifest, rfl, tip⟩
        exact
          ⟨middle, _,
            run_pushOne_upToDate ⟨named, loaded, probed.git⟩ upToDate,
            probed.git.resolved,
            ⟨manifest, loadedChain_eq_ok _ _ _ loaded, tip⟩,
            Or.inr ⟨upToDate.1, rfl⟩⟩
      · have succeeds' :=
          succeeds_unchanged succeeds viewed marker expired
        exact ⟨_, _, succeeds'.run, Converged.of_succeeds succeeds'⟩
  | chained resolved version tip =>
      exact
        again resolved version tip (congrArg View.chain viewed)
  | indexed resolved version tip found =>
      exact
        again resolved version tip (congrArg View.chain viewed)

end Retries

/-! ## A lost reply -/

section Lost

attribute [local instance] Platform.simple

/-- A push of one object of the small history. -/
def pushOf (localSpec : Text) : PushSpec :=
  ⟨false, localSpec, .main⟩

/-- The bucket after a first push. -/
def firstPushed : World :=
  (run answer (pushOne none smallRepo 60 0 (pushOf ['a']))
    (.empty 0)).2

/-- The reply to the writing of the chain is lost. -/
def chainLost : FaultPlan Call ObjectStoreError :=
  fun count _ => if count = 7 then some ⟨.network, true⟩ else none

/-- The push stops before it has given up its lock. -/
theorem cut_off_chainLost :
    Reached smallRepo (pushOf ['b']) (view none .main firstPushed)
        (view none .main
          (cutOff none chainLost smallRepo 60 0 (pushOf ['b']) 8
            firstPushed)) ∧
      ((cutOff none chainLost smallRepo 60 0 (pushOf ['b']) 8
            firstPushed).chain? none .main).map ChainManifest.tip =
        some (digitSha 'b' hex_b) :=
  ⟨(cut_off (by decide) chainLost smallRepo 60 0 8 firstPushed).1,
    by decide +kernel⟩

theorem retried_chainLost :
    ∃ later sha,
      run answer (pushOne none smallRepo 60 100 (pushOf ['b']))
          (cutOff none chainLost smallRepo 60 0 (pushOf ['b']) 8
            firstPushed) =
        (.ok (.ok .main), later) ∧
      Converged none smallRepo (pushOf ['b'])
        (cutOff none chainLost smallRepo 60 0 (pushOf ['b']) 8
          firstPushed)
        later sha := by
  have repeatable :
      Repeatable none smallRepo (pushOf ['b']) firstPushed := by
    left
    intro sha resolved
    have same : smallRepo.resolve ['b'] = some (digitSha 'b' hex_b) := by
      decide +kernel
    have found : some (digitSha 'b' hex_b) = some sha :=
      same.symm.trans resolved
    cases found
    exact ⟨digitSha 'b' hex_b, [], rfl⟩
  have reported :
      (run answer (pushOne none smallRepo 60 0 (pushOf ['b']))
          firstPushed).1 =
        .ok (.ok .main) := by
    decide +kernel
  have expired :
      (cutOff none chainLost smallRepo 60 0 (pushOf ['b']) 8
            firstPushed).lockFree 60 100 (lockKey none .main) =
        true := by
    decide +kernel
  rcases
    retried (by decide) repeatable reported chainLost 8 expired with
    ⟨later, sha, ran, converged, -⟩
  exact ⟨later, sha, ran, converged⟩

end Lost

end GitRemoteObjectStore.PushRetries
