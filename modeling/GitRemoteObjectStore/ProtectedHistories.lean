import GitRemoteObjectStore.Ownership
import GitRemoteObjectStore.ProtectedRefs

/-!
# Histories of a protected reference

Pushes, forced pushes, deletions and compactions of a protected packchain
reference, interleaved at single store calls.  None of them touches the
marker, so it need not be assumed to stay.  The reference is listed in every
bucket reached, at a commit that descends from the one it was at when it was
protected, if the pushers' repositories answer truthfully.
-/

namespace GitRemoteObjectStore.ProtectedHistories

open CallProgram Prog Packchain ProtectedRefs

section Histories

variable
    [Platform]
    {bucketPrefix : Option Text}
    {refName : RefName}
    {ι : Type}

/-- Calls that leave the marker of a reference alone. -/
def Untouching
    (bucketPrefix : Option Text)
    (refName : RefName)
    (request : Call) : Prop :=
  ¬ request.Writes (protectedMarkerKey bucketPrefix refName)

theorem permits_untouching (other : RefName) :
    Permits bucketPrefix other .packchain
      (Untouching bucketPrefix refName) := by
  apply permits_aside
  rintro slot touched same
  rw [protectedMarkerKey_eq, Slot.key_inj] at same
  subst same
  rcases touched with written | lock | head | format
  · exact written
  · cases lock
  · cases head
  · cases format

theorem untouching_swept
    {key : Text}
    (unmarked : Ownership.Unmarked bucketPrefix key) :
    Untouching bucketPrefix refName (.delete key) :=
  fun same => unmarked refName same.symm

theorem issues_prepare (operation : Operation) :
    Issues Call.Credible (Untouching bucketPrefix refName)
      (prepare bucketPrefix refName operation) := by
  have permits := @permits_untouching _ bucketPrefix refName refName
  cases operation with
  | push repo force localSpec =>
      simp only [prepare]
      split
      · trivial
      · apply Issues.bind
        · apply Issues.attempt
          apply issues_preparePush permits.reads
          exact fun slot content upload =>
            permits.put slot _ (writtenBy_of_isUpload upload)
        · intro _
          trivial
  | compact scratch force =>
      apply (issues_prepareCompact permits.reads _ _ force).attempt.bind
      intro _
      trivial
  | deleteBranch confirmed =>
      apply
        (issues_prepareDeleteBranch permits.reads _ _
          confirmed).attempt.bind
      intro _
      trivial

theorem issues_work (task : Task) :
    Issues Call.Credible (Untouching bucketPrefix refName)
      (work bucketPrefix refName task) := by
  have permits := @permits_untouching _ bucketPrefix refName
  have ending
      {ε α : Type}
      {program : Program ε α}
      (issues :
        Issues Call.Credible (Untouching bucketPrefix refName) program) :
      Issues Call.Credible (Untouching bucketPrefix refName)
        (toEffect program) := by
    apply issues.attempt.bind
    intro _
    trivial
  cases task with
  | push repo state =>
      apply ending
      exact issues_performPushUnderLock (permits state.remoteRef) repo rfl
  | delete =>
      apply ending
      apply Ownership.issues_deleteUnderLock (permits refName).reads
      · exact (permits refName).put_tombstone
      · exact fun key _ unmarked => untouching_swept unmarked
  | compact scratch =>
      apply ending
      exact issues_compactUnderLock (permits refName) scratch
  | deleteBranch =>
      apply ending
      apply Ownership.issues_deleteBranchUnderLock (permits refName).reads
      · exact (permits refName).put_tombstone
      · exact fun key _ unmarked => untouching_swept unmarked

variable [DecidableEq ι]

theorem obeys_untouching :
    (clients bucketPrefix refName ι).Obeys Call.Credible
      fun _ => Untouching bucketPrefix refName where
  honest := Watched.credible_watch
  prepare := issues_prepare
  work := fun _ => issues_work

/-- The marker is there. -/
def Marked
    (bucketPrefix : Option Text)
    (refName : RefName)
    (state : Watched ι) : Prop :=
  (state.world.get? (protectedMarkerKey bucketPrefix refName)).isSome

/-- Any call at all. -/
def Any
    (_client : ι)
    (_operation : Operation)
    (_request : Call)
    (_state : Watched ι) : Prop :=
  True

instance
    (client : ι)
    (operation : Operation)
    (request : Call)
    (state : Watched ι) :
    Decidable (Any client operation request state) :=
  inferInstanceAs (Decidable True)

/-- Nothing the clients do removes the marker. -/
theorem marked_of_reaches
    {start : World}
    {pool : Pool ι Operation Call Reply Unit Task (Watched ι)}
    (marked : Marked bucketPrefix refName (.ofWorld start : Watched ι))
    (reached :
      (clients bucketPrefix refName ι).Reaches
        (fun pool => pool.Meets Any) (.quiet (.ofWorld start)) pool) :
    Marked bucketPrefix refName pool.state := by
  have first :
      (clients bucketPrefix refName ι).Reaches
        (fun pool => pool.Meets Any) (.quiet (.ofWorld start))
        (.quiet (.ofWorld start)) :=
    .refl
  apply
    obeys_untouching.lasts first reached (Marked bucketPrefix refName)
  · exact fun _ _ held => held
  · exact fun _ _ held => held
  · intro client operation request state _ untouching held
    have kept := get?_answer_of_not_writes untouching state.world
    exact (congrArg Option.isSome kept).trans held
  · exact marked

/-- Operations whose repository answers for an order of the commits. -/
def Truthful
    (Older : Sha → Sha → Prop)
    (operation : Operation) : Prop :=
  ∀ repo force localSpec,
    operation = .push repo force localSpec →
      ∀ old new, Descends repo old new → Older old new

/-- Only truthful operations are started. -/
def Starts (Older : Sha → Sha → Prop) : Action ι Operation → Prop
  | .start _ operation => Truthful Older operation
  | _ => True

/-- A protected reference stays listed, and never goes back. -/
theorem never_rewinds
    (Older : Sha → Sha → Prop)
    (refl : ∀ sha, Older sha sha)
    (trans :
      ∀ first second third,
        Older first second → Older second third → Older first third)
    {start : World}
    {sha : Sha40}
    (marked :
      (start.get? (protectedMarkerKey bucketPrefix refName)).isSome)
    (advertised : Advertises bucketPrefix start refName sha)
    {pool : Pool ι Operation Call Reply Unit Task (Watched ι)}
    (reached :
      (clients bucketPrefix refName ι).Reaches
        (fun pool action => pool.Meets Any action ∧ Starts Older action)
        (.quiet (.ofWorld start)) pool) :
    ∃ tip,
      Advertises bucketPrefix pool.state.world refName tip ∧
        Older sha tip := by
  rcases advertises_iff.1 advertised with ⟨under, chain, found, rfl⟩
  suffices followed :
      (clients bucketPrefix refName ι).Reaches
          (fun pool => pool.Meets (Guarded bucketPrefix refName))
          (.quiet (.ofWorld start)) pool ∧
        ∃ current,
          pool.state.world.chain? bucketPrefix refName = some current ∧
            Older chain.tip current.tip by
    rcases followed with ⟨-, current, stored, older⟩
    exact
      ⟨current.tip, advertises_iff.2 ⟨under, current, stored, rfl⟩, older⟩
  induction reached with
  | refl => exact ⟨.refl, chain, found, refl _⟩
  | @step pool next action before allowed stepped hypothesis =>
      rcases hypothesis with ⟨guarded, current, stored, older⟩
      have here : Marked bucketPrefix refName pool.state :=
        marked_of_reaches marked
          (before.weaken fun _ _ allowed => allowed.1)
      have meets :
          pool.Meets (Guarded bucketPrefix refName) action := by
        cases action with
        | call client => exact fun _ _ => here
        | atomic client => exact allowed.1.elim
        | _ => trivial
      have ok :=
        guarded.ok follows_protection (fun _ _ allowed => allowed)
          (Pool.ok_quiet trivial)
      refine ⟨guarded.step meets stepped, ?_⟩
      rcases tipAdvances_of_step ok meets stepped with
        same | ⟨client, operation, request, -, calls, advances⟩
      · exact ⟨current, (chain?_congr same).trans stored, older⟩
      rcases advances current stored with ⟨later, written, moved⟩
      refine ⟨later, written, ?_⟩
      rcases moved with same | ⟨repo, force, localSpec, push, descends⟩
      · rw [same]
        exact older
      · have truthful : Truthful Older operation :=
          (System.Reaches.started
            (fun _ _ _ allowed => allowed.2) before client).call calls
        exact
          trans _ _ _ older (truthful repo force localSpec push _ _ descends)

end Histories

/-! ## A schedule -/

section Schedules

attribute [local instance] Platform.simple

/-- A protected reference at its first commit. -/
def firstCommit : World :=
  markedWorld.put (chainKey none .main)
    (.chain
      ⟨1, digitSha 'a' hex_a, digitSha 'a' hex_a,
        [⟨digitSha 'a' hex_a, none, packKey none (digitSha 'a' hex_a),
          0⟩]⟩)

/-- A forced push to the next commit, up to the writing of its chain. -/
def forcedAhead : List (Action Nat Operation) :=
  .start 0 (.push .linear true ['b']) :: Action.calls 0 4 ++
    .settle 0 :: .lock 0 :: Action.calls 0 5

/-- Commits of the linear history are ordered by their texts. -/
theorem le_of_descends_linear
    {old new : Sha}
    (descends : Descends .linear old new) :
    old.text ≤ new.text := by
  rcases descends with ⟨_, _, _, _, peeledOld, peeledNew, ancestor⟩
  cases peeledOld
  cases peeledNew
  simp only [LocalRepo.isAncestor] at ancestor
  split at ancestor
  next same =>
      rw [same]
  next =>
      simp only [LocalRepo.linear, Except.ok.injEq, decide_eq_true_eq]
        at ancestor
      split at ancestor
      next le => exact le
      next =>
          rw [ancestor]

theorem starts_forcedAhead :
    ∀ action ∈ forcedAhead,
      Starts (fun old new => old.text ≤ new.text) action := by
  intro action listed
  cases action with
  | start client operation =>
      have pushes :
          client = 0 ∧ operation = .push .linear true ['b'] := by
        simpa [forcedAhead, Action.calls] using listed
      intro repo force localSpec push old new descends
      cases pushes.2.symm.trans push
      exact le_of_descends_linear descends
  | _ => trivial

theorem never_rewinds_forced :
    ∃ pool,
      (clients none .main Nat).schedule?
          (fun pool => pool.Meets Any) forcedAhead
          (.quiet (.ofWorld firstCommit)) = some pool ∧
        pool.state.world.chain? none .main ≠
          firstCommit.chain? none .main ∧
        ∃ tip,
          Advertises none pool.state.world .main tip ∧
            (digitSha 'a' hex_a).text ≤ tip.text := by
  have executed :
      ((clients none .main Nat).schedule?
          (fun pool => pool.Meets Any) forcedAhead
          (.quiet (.ofWorld firstCommit))).map
        (fun pool =>
          pool.state.world.chain? none .main !=
            firstCommit.chain? none .main) =
        some true := by
    decide +kernel
  rcases Option.map_eq_some_iff.1 executed with ⟨pool, reached, moved⟩
  have advertised :
      Advertises none firstCommit .main (digitSha 'a' hex_a) := by
    have tip :
        (firstCommit.chain? none .main).map ChainManifest.tip =
          some (digitSha 'a' hex_a) := by
      decide +kernel
    apply advertises_iff.2
    rcases Option.map_eq_some_iff.1 tip with ⟨chain, found, tip⟩
    exact ⟨⟨lit "heads/main", by decide +kernel⟩, chain, found, tip⟩
  refine ⟨pool, reached, bne_iff_ne.1 moved, ?_⟩
  exact
    never_rewinds (fun old new => old.text ≤ new.text)
      (fun sha => le_refl sha.text) (fun _ _ _ => le_trans)
      (by decide +kernel) advertised
      (System.Reaches.refl.scheduled starts_forcedAhead reached)

end Schedules

end GitRemoteObjectStore.ProtectedHistories
