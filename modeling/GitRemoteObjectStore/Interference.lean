import GitRemoteObjectStore.Operations
import GitRemoteObjectStore.Library.Pool

/-!
# Clients sharing a bucket

The state shared by interleaved clients: the bucket, and for each client the
keys deleted since its operation began and the packs named by manifests
committed since its last listing.  The last two are bookkeeping for
conditions on schedules; no program sees them.
-/

namespace GitRemoteObjectStore

open CallProgram Prog

/-- A bucket and what each client has missed. -/
structure Watched (ι : Type) where
  world : World
  /-- Keys deleted since the client's operation began, not rewritten. -/
  lost : ι → List Text
  /-- Packs named by chains committed since the client's last listing. -/
  fresh : ι → List Sha40

/-- The packs a manifest names. -/
def ChainManifest.packShas (manifest : ChainManifest) : List Sha40 :=
  manifest.segments.filterMap fun segment => shaFromPackKey segment.pack

namespace Call

/-- The keys a call may change. -/
def Writes : Call → Text → Prop
  | .put key _, other => other = key
  | .putIfAbsent key _, other => other = key
  | .delete key, other => other = key
  | _, _ => False

/-- The deleted keys after a call. -/
def lostAfter : Call → List Text → List Text
  | .put key _, lost => lost.filter (· ≠ key)
  | .putIfAbsent key _, lost => lost.filter (· ≠ key)
  | .delete key, lost => key :: lost
  | _, lost => lost

/-- The newly named packs after a call, one's own or another's. -/
def freshAfter (own : Bool) : Call → List Sha40 → List Sha40
  | .list _, fresh => if own then [] else fresh
  | .put _ (.chain manifest), fresh => manifest.packShas ++ fresh
  | .putIfAbsent _ (.chain manifest), fresh => manifest.packShas ++ fresh
  | _, fresh => fresh

/-- A listing only returns keys with the requested beginning. -/
def Credible : (request : Call) → Reply request → Prop
  | .list start, .ok entries => ∀ entry ∈ entries, start <+: entry.key
  | _, _ => True

end Call

namespace Watched

variable {ι : Type}

/-- A bucket nobody has missed anything of. -/
def ofWorld (world : World) : Watched ι :=
  ⟨world, fun _ => [], fun _ => []⟩

/-- Something is stored at a key. -/
def Present (state : Watched ι) (key : Text) : Prop :=
  (state.world.get? key).isSome

/-- An object is there, or its deletion has been recorded. -/
def Kept (state : Watched ι) (client : ι) (key : Text) : Prop :=
  state.Present key ∨ key ∈ state.lost client

/-- A client that begins an operation has missed nothing yet. -/
def begin [DecidableEq ι] (client : ι) (state : Watched ι) : Watched ι :=
  { state with lost := Function.update state.lost client [] }

/-- Time passes for the bucket. -/
def elapse (duration : Nat) (state : Watched ι) : Watched ι :=
  { state with world := state.world.wait duration }

end Watched

section Calls

variable [Platform]

theorem get?_answer_of_not_writes
    {request : Call}
    {key : Text}
    (untouched : ¬ request.Writes key)
    (world : World) :
    (answer request world).2.get? key = world.get? key := by
  cases request with
  | list start => rfl
  | get other =>
      simp only [answer]
      split <;> rfl
  | head other =>
      simp only [answer]
      split <;> rfl
  | put other body => exact World.get?_put_ne _ _ _ untouched
  | putIfAbsent other body =>
      simp only [answer]
      split
      · rfl
      · exact World.get?_put_ne _ _ _ untouched
  | delete other =>
      simp only [answer]
      split
      · exact World.get?_remove_ne _ _ untouched
      · rfl
  | nowUtc => rfl
  | newUuid => rfl

theorem body?_answer_of_not_writes
    {request : Call}
    {key : Text}
    (untouched : ¬ request.Writes key)
    (world : World) :
    (answer request world).2.body? key = world.body? key := by
  unfold World.body?
  rw [get?_answer_of_not_writes untouched]

theorem body?_answer_delete (key : Text) (world : World) :
    (answer (.delete key) world).2.body? key = none := by
  simp only [answer, World.body?]
  cases found : world.get? key with
  | none =>
      simp only [found]
      rfl
  | some object => simp

/-- Only its deletion makes an object disappear. -/
theorem present_answer
    {request : Call}
    {key : Text}
    (notDeleted : request ≠ .delete key)
    {world : World}
    (present : (world.get? key).isSome) :
    ((answer request world).2.get? key).isSome := by
  by_cases touched : request.Writes key
  · cases request with
    | put other body =>
        cases touched
        simp [answer]
    | putIfAbsent other body =>
        cases touched
        simp only [answer]
        cases found : world.get? key with
        | none => simp
        | some object => simp [found]
    | delete other =>
        cases touched
        exact absurd rfl notDeleted
    | list start => exact touched.elim
    | get other => exact touched.elim
    | head other => exact touched.elim
    | nowUtc => exact touched.elim
    | newUuid => exact touched.elim
  · rw [get?_answer_of_not_writes touched]
    exact present

/-- What is present after a call was there or has just been written. -/
theorem present_of_answer
    {request : Call}
    {key : Text}
    {world : World}
    (present : ((answer request world).2.get? key).isSome) :
    (world.get? key).isSome ∨ request.Writes key := by
  by_cases touched : request.Writes key
  · exact Or.inr touched
  · rw [get?_answer_of_not_writes touched] at present
    exact Or.inl present

theorem credible_answer (request : Call) (world : World) :
    request.Credible (answer request world).1 := by
  cases request with
  | list start =>
      intro entry member
      exact (World.mem_listing.1 member).1
  | _ => trivial

/-- A program that never writes a key leaves its object alone. -/
theorem get?_run_of_issues
    {ε α : Type}
    {program : Program ε α}
    {key : Text}
    (issues :
      Issues Call.Credible (fun request => ¬ request.Writes key) program)
    (world : World) :
    (run answer program world).2.get? key = world.get? key := by
  have kept
      (request : Call)
      (state : World)
      (untouched : ¬ request.Writes key)
      (same : state.get? key = world.get? key) :
      (answer request state).2.get? key = world.get? key := by
    rw [get?_answer_of_not_writes untouched, same]
  exact issues.run credible_answer kept rfl

end Calls

namespace Watched

variable {ι : Type} [DecidableEq ι] [Platform]

omit [DecidableEq ι] [Platform] in
@[simp]
theorem present_elapse
    {state : Watched ι} {duration : Nat} {key : Text} :
    (state.elapse duration).Present key ↔ state.Present key :=
  Iff.rfl

/-- The store answering one client, with the bookkeeping. -/
def watch (client : ι) : Handler Call Reply (Watched ι) :=
  fun request state =>
    ((answer request state.world).1,
      { world := (answer request state.world).2
        lost := fun other => request.lostAfter (state.lost other)
        fresh := fun other =>
          request.freshAfter (decide (other = client))
            (state.fresh other) })

@[simp]
theorem watch_reply
    (client : ι) (request : Call) (state : Watched ι) :
    (watch client request state).1 = (answer request state.world).1 :=
  rfl

@[simp]
theorem watch_world
    (client : ι) (request : Call) (state : Watched ι) :
    (watch client request state).2.world =
      (answer request state.world).2 :=
  rfl

/-- Nothing a program does depends on the bookkeeping. -/
theorem run_watch
    {ε α : Type}
    (client : ι)
    (program : Program ε α)
    (state : Watched ι) :
    (run (watch client) program state).1 =
        (run answer program state.world).1 ∧
      (run (watch client) program state).2.world =
        (run answer program state.world).2 := by
  induction program generalizing state with
  | done value => exact ⟨rfl, rfl⟩
  | fail error => exact ⟨rfl, rfl⟩
  | call request next hypothesis => exact hypothesis _ _

/-! ### Calls that only look -/

@[simp]
theorem watch_get (client : ι) (key : Text) (state : Watched ι) :
    (watch client (.get key) state).2 = state := by
  unfold watch
  simp only [answer]
  split <;> rfl

@[simp]
theorem watch_head (client : ι) (key : Text) (state : Watched ι) :
    (watch client (.head key) state).2 = state := by
  unfold watch
  simp only [answer]
  split <;> rfl

@[simp]
theorem watch_nowUtc (client : ι) (state : Watched ι) :
    (watch client .nowUtc state).2 = state :=
  rfl

@[simp]
theorem watch_list_world
    (client : ι) (start : Text) (state : Watched ι) :
    (watch client (.list start) state).2.world = state.world :=
  rfl

theorem credible_watch
    (client : ι) (request : Call) (state : Watched ι) :
    request.Credible (watch client request state).1 :=
  credible_answer request state.world

/-- What was kept stays kept, whoever acts. -/
theorem Kept.watch
    {state : Watched ι}
    {client : ι}
    {key : Text}
    (kept : state.Kept client key)
    (other : ι)
    (request : Call) :
    (Watched.watch other request state).2.Kept client key := by
  by_cases deleted : request = .delete key
  · subst deleted
    exact Or.inr (List.mem_cons_self ..)
  · rcases kept with present | lost
    · exact Or.inl (present_answer deleted present)
    · by_cases touched : request.Writes key
      · left
        unfold Present
        simp only [watch_world]
        cases request with
        | put target body =>
            cases touched
            simp [answer]
        | putIfAbsent target body =>
            cases touched
            simp only [answer]
            cases found : state.world.get? key with
            | none => simp
            | some object => simp [found]
        | delete target =>
            cases touched
            exact absurd rfl deleted
        | list start => exact touched.elim
        | get target => exact touched.elim
        | head target => exact touched.elim
        | nowUtc => exact touched.elim
        | newUuid => exact touched.elim
      · right
        show key ∈ request.lostAfter (state.lost client)
        cases request with
        | put target body =>
            exact
              List.mem_filter.2
                ⟨lost, decide_eq_true fun same => touched same⟩
        | putIfAbsent target body =>
            exact
              List.mem_filter.2
                ⟨lost, decide_eq_true fun same => touched same⟩
        | delete target => exact List.mem_cons_of_mem _ lost
        | list start => exact lost
        | get target => exact lost
        | head target => exact lost
        | nowUtc => exact lost
        | newUuid => exact lost

omit [Platform] in
theorem Kept.begin
    {state : Watched ι}
    {client other : ι}
    {key : Text}
    (kept : state.Kept client key)
    (different : other ≠ client) :
    (Watched.begin other state).Kept client key := by
  rcases kept with present | lost
  · exact Or.inl present
  · right
    simp only [Watched.begin]
    rw [Function.update_of_ne different.symm]
    exact lost

end Watched

/-! ## Which calls the source's programs issue -/

/-- Calls that change no object. -/
def Call.Reads : Call → Prop
  | .list _ => True
  | .get _ => True
  | .head _ => True
  | .nowUtc => True
  | .newUuid => True
  | _ => False

section Issues

variable
    [Platform]
    {allowed : Call → Prop}
    (reads : ∀ request : Call, request.Reads → allowed request)
    (bucketPrefix : Option Text)
    (refName : RefName)

omit [Platform] in
/-- A store call issues only itself. -/
theorem issues_request
    {ε α : Type}
    {request : Call}
    {next : Reply request → Program ε α}
    (permitted : allowed request)
    (silent : ∀ reply, Issues Call.Credible allowed (next reply)) :
    Issues Call.Credible allowed (.call request next) :=
  ⟨permitted, fun reply _ => silent reply⟩

omit [Platform] in
theorem issues_deleteIdempotent
    {key : Text}
    (permitted : allowed (.delete key)) :
    Issues Call.Credible allowed (deleteIdempotent key) := by
  refine issues_request permitted fun reply => ?_
  rcases reply with error | done
  · cases error <;> exact trivial
  · exact trivial

include reads

theorem issues_loadChain :
    Issues Call.Credible allowed (loadChain bucketPrefix refName) := by
  refine issues_request (reads _ trivial) fun reply => ?_
  rcases reply with error | body
  · cases error <;> exact trivial
  · simp only [Prog.ofExcept, Prog.attempt, Prog.bind]
    cases ChainManifest.fromJsonBytes body <;> exact trivial

theorem issues_isProtected :
    Issues Call.Credible allowed
      (isProtected bucketPrefix refName) := by
  refine issues_request (reads _ trivial) fun reply => ?_
  rcases reply with error | found
  · cases error <;> exact trivial
  · exact trivial

theorem issues_verifyNoOrphanProtectedAfterDelete {ε : Type} :
    Issues Call.Credible allowed
      (verifyNoOrphanProtectedAfterDelete bucketPrefix refName :
        Program ε Unit) := by
  refine issues_request (reads _ trivial) fun reply => ?_
  rcases reply with error | found <;> exact trivial

theorem issues_writeBaselineTombstoneUnconditional
    (sha : Sha40)
    (writes :
      ∀ runId record,
        allowed
          (.put (baselineTombstoneKey (prefixText bucketPrefix) runId)
            (.baselineTombstone record))) :
    Issues Call.Credible allowed
      (writeBaselineTombstoneUnconditional bucketPrefix refName sha) := by
  refine issues_request (reads _ trivial) fun markedAt => ?_
  refine issues_request (reads _ trivial) fun runId => ?_
  exact Issues.mapError (issues_request (writes _ _) (by simp))

theorem issues_writeBaselineTombstoneBestEffort
    {ε : Type}
    (prior current : Sha40)
    (writes :
      ∀ runId record,
        allowed
          (.put (baselineTombstoneKey (prefixText bucketPrefix) runId)
            (.baselineTombstone record))) :
    Issues Call.Credible allowed
      (writeBaselineTombstoneBestEffort bucketPrefix refName prior
        current : Program ε Bool) := by
  unfold writeBaselineTombstoneBestEffort writeBaselineTombstone
  refine Issues.bind (Issues.attempt ?_) fun outcome => ?_
  · split
    · exact trivial
    · exact
        issues_writeBaselineTombstoneUnconditional reads _ _ _ writes
  · cases outcome <;> exact trivial

theorem issues_tryWriteBaselineTombstone
    {ε : Type}
    (entries : List ObjectMeta)
    (writes :
      ∀ runId record,
        allowed
          (.put (baselineTombstoneKey (prefixText bucketPrefix) runId)
            (.baselineTombstone record))) :
    Issues Call.Credible allowed
      (tryWriteBaselineTombstone bucketPrefix refName entries :
        Program ε (Option Text)) := by
  unfold tryWriteBaselineTombstone
  apply (issues_loadChain reads _ _).attempt.bind
  intro outcome
  rcases outcome with error | _ | chain
  · trivial
  · trivial
  · simp only
    split
    · apply
        (issues_writeBaselineTombstoneUnconditional reads _ _ _
          writes).attempt.bind
      intro written
      cases written <;> trivial
    · trivial

end Issues

/-- What a program does with the entries of a listing. -/
theorem issues_list_bind
    {allowed : Call → Prop}
    {start : Text}
    {ε α : Type}
    {convert : ObjectStoreError → ε}
    {next : List ObjectMeta → Program ε α}
    (permitted : allowed (.list start))
    (rest :
      ∀ entries, (∀ entry ∈ entries, start <+: entry.key) →
        Issues Call.Credible allowed (next entries)) :
    Issues Call.Credible allowed
      ((Store.list start).mapError convert >>= next) := by
  constructor
  · exact permitted
  · intro reply credible
    cases reply with
    | error error => trivial
    | ok entries => exact rest entries credible

/-! ## Which calls a sweep issues -/

section Sweeping

variable
    [Platform]
    {allowed : Call → Prop}
    (reads : ∀ request : Call, request.Reads → allowed request)

omit [Platform] in
theorem issues_deleteCounted
    {key : Text}
    (permitted : allowed (.delete key)) :
    Issues Call.Credible allowed (deleteCounted key) := by
  apply issues_request permitted
  intro reply
  rcases reply with error | deleted
  · cases error <;> trivial
  · trivial

include reads

omit [Platform] in
theorem issues_getBytes (key : Text) :
    Issues Call.Credible allowed (Store.getBytes key) := by
  apply issues_request (reads (.get key) trivial)
  simp

omit [Platform] in
theorem issues_listReferencedPacks
    (completion : Arrivals.Completion)
    (text : Text) :
    Issues Call.Credible allowed (listReferencedPacks completion text) := by
  apply issues_list_bind (reads (.list _) trivial)
  intro entries _
  apply issues_foldEach
  intro shas entry _
  apply (issues_getBytes reads _).mapError.bind
  intro body
  cases ChainManifest.fromJsonBytes body with
  | error error => trivial
  | ok chain => exact issues_ofExcept _

omit [Platform] in
theorem issues_graceCheck
    (opts : SweepOpts)
    (markedAt : Option Int) :
    Issues Call.Credible allowed (graceCheck opts markedAt) := by
  unfold graceCheck checkGraceWindow
  split
  · trivial
  · cases markedAt with
    | none => trivial
    | some markedAt =>
        apply issues_request (reads .nowUtc trivial)
        intro now
        trivial

variable
    {scan : Sha40 → Arrivals.Completion}
    {scans : Scans}
    {text key : Text}
    {opts : SweepOpts}

omit [Platform] in
theorem issues_sweepOneTombstone
    (packs :
      ∀ sha,
        allowed (.delete (packKey (some text) sha)) ∧
          allowed (.delete (packIdxKey (some text) sha)))
    (own : allowed (.delete key)) :
    Issues Call.Credible allowed (sweepOneTombstone scan text key opts) := by
  unfold sweepOneTombstone
  apply (issues_getBytes reads key).attempt.bind
  intro outcome
  rcases outcome with error | body
  · cases error <;> trivial
  apply (issues_ofExcept _).bind
  intro tombstone
  apply (issues_graceCheck reads opts tombstone.markedAt).bind
  intro decision
  cases decision with
  | within => trivial
  | past =>
      apply Issues.bind
      · apply issues_foldEach
        intro counts sha _
        apply (issues_listReferencedPacks reads (scan sha) text).bind
        intro referenced
        split
        · trivial
        · apply (issues_deleteCounted (packs sha).1).bind
          intro pack
          apply (issues_deleteCounted (packs sha).2).bind
          intro idx
          trivial
      · intro counts
        apply (issues_deleteCounted own).bind
        intro _
        trivial

theorem issues_sweepOneBaselineTombstone
    (bundles :
      ∀ refName sha,
        allowed (.delete (bundleKey (prefixOpt text) refName sha)))
    (own : allowed (.delete key)) :
    Issues Call.Credible allowed
      (sweepOneBaselineTombstone text key opts) := by
  unfold sweepOneBaselineTombstone
  apply (issues_getBytes reads key).attempt.bind
  intro outcome
  rcases outcome with error | body
  · cases error <;> trivial
  apply (issues_ofExcept _).bind
  intro tombstone
  apply (issues_graceCheck reads opts tombstone.markedAt).bind
  intro decision
  cases decision with
  | within => trivial
  | past =>
      cases RefName.new tombstone.refName with
      | none => trivial
      | some refName =>
          apply (issues_loadChain reads _ _).bind
          intro chain
          split
          · apply (issues_deleteCounted own).bind
            intro _
            trivial
          apply (issues_loadChain reads _ _).bind
          intro recheck
          split
          · trivial
          apply (issues_deleteCounted (bundles _ _)).bind
          intro deleted
          apply (issues_deleteCounted own).bind
          intro _
          trivial

theorem issues_sweep
    (packs :
      ∀ sha,
        allowed (.delete (packKey (some text) sha)) ∧
          allowed (.delete (packIdxKey (some text) sha)))
    (bundles :
      ∀ refName sha,
        allowed (.delete (bundleKey (prefixOpt text) refName sha)))
    (tombstones :
      ∀ key, gcListingPrefix text <+: key → allowed (.delete key)) :
    Issues Call.Credible allowed (sweep scans text opts) := by
  apply issues_list_bind (reads (.list _) trivial)
  intro entries begins
  apply issues_foldEach
  intro outcome entry member
  have own := tombstones _ (begins entry member)
  unfold sweepEntry
  split
  · trivial
  split
  · apply (issues_sweepOneTombstone reads packs own).attempt.bind
    intro step
    trivial
  split
  · apply (issues_sweepOneBaselineTombstone reads bundles own).attempt.bind
    intro step
    trivial
  · trivial

/-- Marking writes nothing but a tombstone. -/
theorem issues_mark
    (completion : Arrivals.Completion)
    (dryRun : Bool)
    (writes :
      ∀ runId markedAt record,
        allowed
          (.put (tombstoneKey text runId markedAt) (.tombstone record))) :
    Issues Call.Credible allowed (mark completion text dryRun) := by
  unfold mark
  apply Issues.bind
  · apply issues_list_bind (reads (.list _) trivial)
    intro entries _
    trivial
  intro onBucket
  apply (issues_listReferencedPacks reads completion text).bind
  intro referenced
  apply issues_request (reads .newUuid trivial)
  intro runId
  apply issues_request (reads .nowUtc trivial)
  intro markedAt
  apply (issues_done markedAt).bind
  intro markedAt
  split
  · trivial
  split
  · trivial
  apply Issues.bind
  · apply Issues.mapError
    apply issues_request
    · exact writes _ _ _
    · simp
  intro _
  trivial

end Sweeping

/-! ## Which calls the packchain operations issue -/

namespace Packchain

variable
    [Platform]
    {allowed : Call → Prop}
    (reads : ∀ request : Call, request.Reads → allowed request)
    (bucketPrefix : Option Text)
    (refName : RefName)

include reads

theorem issues_forceRefused
    (repo : LocalRepo)
    (ready : ReadyState)
    (current : Option ChainManifest) :
    Issues Call.Credible allowed
      (forceRefused bucketPrefix repo ready current) := by
  unfold forceRefused
  split
  · refine
      (issues_isProtected reads _ _).mapError.bind fun guarded => ?_
    split
    · cases current with
      | none => trivial
      | some chain => exact (issues_ofExcept _).bind fun _ => trivial
    · trivial
  · trivial

theorem issues_downloadChainArtefacts
    (completion : Arrivals.Completion)
    (chain : ChainManifest) :
    Issues Call.Credible allowed
      (downloadChainArtefacts bucketPrefix completion refName chain) := by
  unfold downloadChainArtefacts
  refine (issues_ofExcept _).bind fun tasks => ?_
  have reading (key : Text) :
      Issues Call.Credible allowed (Store.getToFile key) :=
    issues_request (reads (.get key) trivial) fun _ => by simp
  apply issues_foldEach
  intro directory task _
  exact (reading task.key).mapError.bind fun _ => trivial

theorem issues_prepareCompact
    (force : Bool) :
    Issues Call.Credible allowed
      (prepareCompact bucketPrefix refName force) := by
  refine (issues_loadChain reads _ _).bind fun found => ?_
  cases found with
  | none => trivial
  | some prior =>
      simp only
      split
      · trivial
      · exact issues_request (reads .nowUtc trivial) fun _ => trivial

theorem issues_prepareDeleteBranch
    (confirmed : Bool) :
    Issues Call.Credible allowed
      (prepareDeleteBranch bucketPrefix refName confirmed) := by
  have listing :
      Issues Call.Credible allowed
        ((Store.list
          (refListingPrefix bucketPrefix refName)).mapError
            ManageError.store) :=
    Issues.mapError
      (issues_request (reads (.list _) trivial) fun _ => by simp)
  unfold prepareDeleteBranch
  refine listing.bind fun opened => ?_
  split
  · trivial
  refine listing.bind fun initial => ?_
  split
  · trivial
  split
  · trivial
  exact issues_request (reads .nowUtc trivial) fun _ => trivial

theorem issues_forcePushBaselineCleanup
    {ε : Type}
    (prior : Option ChainManifest)
    (localSha : Sha)
    (writes :
      ∀ runId record,
        allowed
          (.put (baselineTombstoneKey (prefixText bucketPrefix) runId)
            (.baselineTombstone record))) :
    Issues Call.Credible allowed
      (forcePushBaselineCleanup bucketPrefix refName prior localSha :
        Program ε Unit) := by
  cases prior with
  | none => trivial
  | some manifest =>
      apply Issues.bind
      · exact
          issues_writeBaselineTombstoneBestEffort reads _ _ _ _ writes
      · intro _
        trivial

omit reads

theorem issues_writeOrDropPathIndex
    (pathIndex : Option PathIndex)
    (writes :
      ∀ index,
        allowed
          (.put ((Slot.ref refName .pathIndex).key bucketPrefix)
            (.pathIndex index)))
    (drops :
      allowed
        (.delete ((Slot.ref refName .pathIndex).key bucketPrefix))) :
    Issues Call.Credible allowed
      (writeOrDropPathIndex bucketPrefix refName pathIndex) := by
  unfold writeOrDropPathIndex writePathIndex
  rw [pathIndexKey_eq]
  cases pathIndex with
  | some index =>
      apply Issues.mapError
      apply Issues.mapError
      apply issues_request (writes index)
      simp
  | none =>
      apply Issues.mapError
      exact issues_deleteIdempotent drops

/-- What a push uploads before its lock. -/
def IsUpload : Slot → Prop
  | .pack _ => True
  | .idx _ => True
  | .ref other (.bundle _) => other = refName
  | _ => False

theorem issues_uploadPackIdxBaseline
    (localSha : Sha)
    (pack : BuiltPack)
    (baselineBundle : Option (List UInt8))
    (uploads :
      ∀ slot content,
        IsUpload refName slot →
        allowed (.put (slot.key bucketPrefix) (.file content))) :
    Issues Call.Credible allowed
      (uploadPackIdxBaseline bucketPrefix refName localSha pack
        baselineBundle) := by
  have uploading
      {slot : Slot}
      {content : List UInt8}
      (upload : IsUpload refName slot) :
      Issues Call.Credible allowed
        ((Store.putPath (slot.key bucketPrefix) content).mapError
          PushError.store) := by
    apply Issues.mapError
    apply issues_request (uploads _ _ upload)
    simp
  unfold uploadPackIdxBaseline
  rw [packKey_eq, packIdxKey_eq, bundleKey_eq]
  apply Issues.bind
  · apply uploading
    trivial
  intro _
  apply Issues.bind
  · apply uploading
    trivial
  intro _
  cases baselineBundle with
  | none => trivial
  | some bundle => exact uploading rfl

end Packchain

/-! ## Single requests -/

section Reading

variable
    {ι : Type} [DecidableEq ι] [Platform]
    {contract : Contract Call (Watched ι)}
    {client : ι}
    {state : Watched ι}
    (bucketPrefix : Option Text)
    (refName : RefName)

theorem safe_loadChain
    {post : Except PackchainError (Option ChainManifest) →
      Watched ι → Prop}
    (idle : ∀ state, contract.guarantee state state)
    (holds :
      ∀ found later,
        contract.rely state found → contract.invariant found →
        contract.met (.get (chainKey bucketPrefix refName)) found →
        contract.rely found later → contract.invariant later →
        post
          (loadedChain
            (found.world.body? (chainKey bucketPrefix refName)))
          later) :
    Safe contract (Watched.watch client) post
      (loadChain bucketPrefix refName) state := by
  intro found changed invariant met
  rw [Watched.watch_get]
  refine ⟨⟨invariant, idle found⟩, ?_⟩
  have reached := fun later => holds found later changed invariant met
  revert reached
  simp only [Watched.watch_reply, answer, World.body?]
  cases object : found.world.get? (chainKey bucketPrefix refName) with
  | none => exact fun reached later more holds => reached later more holds
  | some stored =>
      simp only [Option.map_some, loadedChain, Prog.ofExcept,
        Prog.attempt, Prog.bind]
      cases parsed : ChainManifest.fromJsonBytes stored.body with
      | ok manifest =>
          exact fun reached later more holds => reached later more holds
      | error error =>
          exact fun reached later more holds => reached later more holds

/-- One write, between what the others do before it and after it. -/
theorem safe_putBytes
    {key : Text}
    {body : Body}
    {post : Watched ι → Prop}
    (permitted :
      ∀ written,
        contract.rely state written → contract.invariant written →
        contract.met (.put key body) written →
          contract.invariant
              (Watched.watch client (.put key body) written).2 ∧
            contract.guarantee written
              (Watched.watch client (.put key body) written).2)
    (holds :
      ∀ written later,
        contract.rely state written → contract.invariant written →
        contract.met (.put key body) written →
        contract.rely
          (Watched.watch client (.put key body) written).2 later →
        post later) :
    Safe contract (Watched.watch client) (whenOk fun _ later => post later)
      (Store.putBytes key body) state := by
  intro written changed invariant met
  refine ⟨permitted written changed invariant met, ?_⟩
  exact fun later more _ => holds written later changed invariant met more

theorem present_watch_put
    (client : ι) (key : Text) (body : Body) (state : Watched ι) :
    (Watched.watch client (.put key body) state).2.Present key := by
  simp [Watched.Present, answer]

end Reading

/-! ## The clients of one reference -/

/-- Clients working on one packchain reference. -/
def Packchain.clients
    [Platform]
    (bucketPrefix : Option Text)
    (refName : RefName)
    (ι : Type)
    [DecidableEq ι] :
    System ι Packchain.Operation Call Reply Unit Packchain.Task
      (Watched ι) where
  handler := Watched.watch
  begin := Watched.begin
  elapse := Watched.elapse
  prepare := Packchain.prepare bucketPrefix refName
  work := Packchain.work bucketPrefix refName

end GitRemoteObjectStore
