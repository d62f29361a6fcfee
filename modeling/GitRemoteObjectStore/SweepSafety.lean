import GitRemoteObjectStore.BranchDeletion
import GitRemoteObjectStore.BundleHistories

/-!
# What a sweep must not remove

Clients push to the references of a bucket and delete them while the
collector runs at any time.  A baseline tombstone that names the commit
pushed last lets a sweep remove the bundle of the tip.  None does, unless one
named that bundle already when it was pushed.  Under the packchain engine a
sweep looks at the chain, and never removes its baseline.
-/

namespace GitRemoteObjectStore.SweepSafety

open CallProgram Prog GitRemoteObjectStore.Bundle SweepEffects
open BundleHistories

section Tips

variable [Platform]

/-- A bucket, and the commit last pushed to each of its references. -/
structure Branches where
  world : World
  tips : RefName → Option Sha40

/-- The commit a command pushes. -/
def pushed? : Command → Option Sha40
  | .push repo _ _ localSpec _ _ =>
      if localSpec = [] then none else repo.resolve localSpec
  | _ => none

/-- The tip of a reference after a command on it that has succeeded. -/
def tipAfter (before : Option Sha40) : Command → Option Sha40
  | .push repo zip force localSpec ttl now =>
      pushed? (.push repo zip force localSpec ttl now)
  | .deleteBranch .. => none
  | _ => before

/-- A command on one of the references, successful or not. -/
def turn
    (bucketPrefix : Option Text)
    (state : Branches)
    (action : RefName × Command) : Branches :=
  let result := perform bucketPrefix action.1 state.world action.2
  { world := result.2
    tips :=
      if result.1 then
        Function.update state.tips action.1
          (tipAfter (state.tips action.1) action.2)
      else state.tips }

def advance (bucketPrefix : Option Text) :
    Machine Branches (RefName × Command) :=
  fun state action => some (turn bucketPrefix state action)

/-- An empty bucket. -/
def start (clock : Int) : Branches :=
  ⟨.empty clock, fun _ => none⟩

/-- No tombstone names the bundle that a successful push uploads. -/
def Fresh
    (bucketPrefix : Option Text)
    (state : Branches)
    (action : RefName × Command) : Prop :=
  (perform bucketPrefix action.1 state.world action.2).1 = true →
    ∀ sha, pushed? action.2 = some sha →
      ¬ state.world.Tombstoned bucketPrefix action.1 sha

/-! ## New tombstones -/

variable
    {bucketPrefix : Option Text}
    {refName : RefName}
    {world next last : World}

/-- Every tombstone of the next bucket was there, or is one of these. -/
def Hides
    (bucketPrefix : Option Text)
    (world next : World)
    (fresh : RefName → Sha40 → Prop) : Prop :=
  ∀ refName sha,
    next.Tombstoned bucketPrefix refName sha →
      world.Tombstoned bucketPrefix refName sha ∨ fresh refName sha

/-- Nothing that is hidden is new. -/
def HidesNone (bucketPrefix : Option Text) (world next : World) : Prop :=
  Hides bucketPrefix world next fun _ _ => False

theorem HidesNone.refl (world : World) :
    HidesNone bucketPrefix world world :=
  fun _ _ hidden => Or.inl hidden

theorem HidesNone.trans
    {fresh : RefName → Sha40 → Prop}
    (first : HidesNone bucketPrefix world next)
    (second : Hides bucketPrefix next last fresh) :
    Hides bucketPrefix world last fresh := by
  intro refName sha hidden
  rcases second refName sha hidden with before | added
  · exact (first refName sha before).imp_right False.elim
  · exact Or.inr added

theorem Hides.trans
    {fresh : RefName → Sha40 → Prop}
    (first : Hides bucketPrefix world next fresh)
    (second : HidesNone bucketPrefix next last) :
    Hides bucketPrefix world last fresh := by
  intro refName sha hidden
  rcases second refName sha hidden with before | added
  · exact first refName sha before
  · exact added.elim

theorem HidesNone.imp
    {fresh : RefName → Sha40 → Prop}
    (none : HidesNone bucketPrefix world next) :
    Hides bucketPrefix world next fresh :=
  fun refName sha hidden =>
    (none refName sha hidden).imp_right False.elim

theorem hidesNone_put
    {body : Body}
    (plain : ∀ record, body ≠ .baselineTombstone record)
    (key : Text)
    (world : World) :
    HidesNone bucketPrefix world (world.put key body) := by
  rintro refName sha ⟨other, record, named, stored, parts⟩
  rw [World.body?_put] at stored
  split at stored
  · exact absurd (Option.some.inj stored) (plain record)
  · exact Or.inl ⟨other, record, named, stored, parts⟩

theorem hidesNone_remove (key : Text) (world : World) :
    HidesNone bucketPrefix world (world.remove key) := by
  rintro refName sha ⟨other, record, named, stored, parts⟩
  rw [World.body?_remove] at stored
  split at stored
  · cases stored
  · exact Or.inl ⟨other, record, named, stored, parts⟩

theorem hidesNone_putIfAbsent
    {body : Body}
    (plain : ∀ record, body ≠ .baselineTombstone record)
    (key : Text)
    (world : World) :
    HidesNone bucketPrefix world (world.putIfAbsent key body) := by
  unfold World.putIfAbsent
  split
  · exact .refl world
  · exact hidesNone_put plain key world

theorem hidesNone_locked (lock : Text) (world : World) :
    HidesNone bucketPrefix world (world.locked lock) := by
  have plain (record : BaselineTombstone) :
      Body.text [] ≠ .baselineTombstone record := by
    simp
  exact
    (hidesNone_remove lock world).trans
      (hidesNone_put plain lock (world.remove lock))

theorem hidesNone_swept
    (entries : List ObjectMeta)
    (world : World) :
    HidesNone bucketPrefix world (swept entries world) := by
  unfold Bundle.swept
  induction entries generalizing world with
  | nil => exact .refl world
  | cons entry rest hypothesis =>
      exact
        (hidesNone_remove entry.key world).trans
          (hypothesis (world.remove entry.key))

/-- A tombstone hides the bundle it names. -/
theorem hides_tombstone
    (refName : RefName)
    (sha : Sha40)
    (world : World) :
    Hides bucketPrefix world (world.tombstone bucketPrefix refName sha)
      (fun other named => other = refName ∧ named = sha) := by
  rintro other named ⟨key, record, isTombstone, stored, version, own, rfl⟩
  unfold World.tombstone at stored
  rw [World.body?_put] at stored
  split at stored
  · right
    cases stored
    exact ⟨(RefName.ext own).symm, rfl⟩
  · exact Or.inl ⟨key, record, isTombstone, stored, version, own, rfl⟩

/-! ## One command -/

/-- A push names the bundle it supersedes, which is not its own. -/
theorem hides_pushed
    (state : PushReadyState)
    (world : World) :
    Hides bucketPrefix world (pushed bucketPrefix state world)
      (fun other named =>
        other = state.remoteRef ∧ named ≠ state.localSha) := by
  have uploads :
      HidesNone bucketPrefix world
        (uploaded bucketPrefix state
          (world.locked (lockKey bucketPrefix state.remoteRef))) :=
    (hidesNone_locked _ world).trans
      (((hidesNone_put (by simp) _ _).trans
        (hidesNone_putIfAbsent (by simp) _ _)).trans
        (hidesNone_putIfAbsent (by simp) _ _))
  have supersedes (start : World) :
      Hides bucketPrefix start
        (superseded bucketPrefix state state.preExisting start)
        (fun other named =>
          other = state.remoteRef ∧ named ≠ state.localSha) := by
    unfold superseded
    split
    · exact (HidesNone.refl start).imp
    split
    · unfold deferred
      split
      · exact (hidesNone_remove _ start).imp
      next sha parsed =>
          split
          · exact (hidesNone_remove _ start).imp
          next different =>
              intro other named hidden
              rcases hides_tombstone _ _ _ other named hidden with
                before | ⟨rfl, rfl⟩
              · exact Or.inl before
              · exact Or.inr ⟨rfl, different⟩
    · exact (HidesNone.refl start).imp
  have archives (start : World) :
      HidesNone bucketPrefix start (archived bucketPrefix state start) := by
    unfold archived
    split
    · exact .refl start
    · exact hidesNone_put (by simp) _ start
  exact
    ((uploads.trans (supersedes _)).trans (archives _)).trans
      (hidesNone_remove _ _)

variable (bucketPrefix) in
theorem hides_pushOne
    (repo : LocalRepo)
    (zip force : Bool)
    (localSpec : Text)
    (ttl now : Int)
    (world : World) :
    HidesNone bucketPrefix world
        (run answer
          (pushOne bucketPrefix repo zip ttl now
            ⟨force, localSpec, refName⟩)
          world).2 ∨
      (∃ other,
        (run answer
          (pushOne bucketPrefix repo zip ttl now
            ⟨force, localSpec, refName⟩)
          world).1 = .ok (.ok other)) ∧
        Hides bucketPrefix world
          (run answer
            (pushOne bucketPrefix repo zip ttl now
              ⟨force, localSpec, refName⟩)
            world).2
          (fun other named =>
            other = refName ∧ localSpec ≠ [] ∧
              repo.resolve localSpec ≠ some named) := by
  by_cases named : localSpec = []
  · left
    subst named
    rcases
        run_deletion_cases refName repo zip force ttl now world with
      same | ⟨entries, same⟩
    · rw [same]
      exact .refl world
    · rw [same]
      exact
        ((hidesNone_locked _ world).trans (hidesNone_swept _ _)).trans
          (hidesNone_remove _ _)
  · rcases
        succeeds_or_unchanged bucketPrefix repo zip ttl now
          ⟨force, localSpec, refName⟩ named world with
      ⟨found, bundle, succeeds⟩ | ⟨result, next, ran, -, rfl | rfl⟩
    · right
      rw [succeeds.run]
      refine ⟨⟨refName, rfl⟩, ?_⟩
      have resolved := succeeds.prepared.git.resolved
      intro other sha hidden
      rcases hides_pushed _ world other sha hidden with
        before | ⟨same, different⟩
      · exact Or.inl before
      · right
        refine ⟨same, named, ?_⟩
        rw [resolved]
        exact fun equal => different (Option.some.inj equal).symm
    · left
      rw [ran]
      exact .refl _
    · left
      rw [ran]
      exact (hidesNone_locked _ world).trans (hidesNone_remove _ _)

theorem hides_deleteBranch
    (confirmed : Bool)
    (ttl : Int)
    (world : World) :
    HidesNone bucketPrefix world
        (run answer (deleteBranch bucketPrefix refName confirmed ttl)
          world).2 ∨
      (∃ count,
        (run answer (deleteBranch bucketPrefix refName confirmed ttl)
          world).1 = .ok (.deleted count)) ∧
        Hides bucketPrefix world
          (run answer (deleteBranch bucketPrefix refName confirmed ttl)
            world).2
          (fun other _ => other = refName) := by
  rcases run_deleteBranch_cases refName confirmed ttl world with
    same | ran
  · left
    rw [same]
    exact .refl world
  · rw [ran]
    by_cases deletes :
        BranchDeletes bucketPrefix refName
          (world.locked (lockKey bucketPrefix refName))
    · right
      rcases run_deleteBranchUnderLock deletes with ⟨count, swept⟩
      rw [swept]
      refine ⟨⟨count, rfl⟩, ?_⟩
      have defers (entries : List ObjectMeta) (start : World) :
          Hides bucketPrefix start
            (deferring bucketPrefix refName entries start)
            (fun other _ => other = refName) := by
        unfold deferring
        split
        · intro other named hidden
          exact
            (hides_tombstone _ _ _ other named hidden).imp_right
              And.left
        · exact (HidesNone.refl start).imp
      exact
        (((hidesNone_locked _ world).trans (defers _ _)).trans
          (hidesNone_swept _ _)).trans (hidesNone_remove _ _)
    · left
      rw [(run_deleteBranchUnderLock_refused deletes).2]
      exact (hidesNone_locked _ world).trans (hidesNone_remove _ _)

theorem hidesNone_mark
    (completion : Arrivals.Completion)
    (dryRun : Bool)
    (world : World) :
    HidesNone bucketPrefix world
      (run answer (mark completion (prefixText bucketPrefix) dryRun)
        world).2 := by
  let allowed (request : Call) : Prop :=
    request.Reads ∨ ∃ key record, request = .put key (.tombstone record)
  have issues :
      Issues Call.Credible allowed
        (mark completion (prefixText bucketPrefix) dryRun) :=
    issues_mark (fun request reads => Or.inl reads) completion dryRun
      fun runId markedAt record => Or.inr ⟨_, record, rfl⟩
  have kept
      (request : Call)
      (state : World)
      (permitted : allowed request)
      (before : HidesNone bucketPrefix world state) :
      HidesNone bucketPrefix world (answer request state).2 := by
    apply before.trans
    rcases permitted with reads | ⟨key, record, rfl⟩
    · exact fun refName sha hidden =>
        Or.inl ((collected_reads reads state).tombstoned hidden)
    · exact hidesNone_put (by simp) key state
  exact issues.run credible_answer kept (.refl world)

/-! ## Every command -/

variable (bucketPrefix) in
/-- A command hides the tip of no reference. -/
theorem hides_perform
    (refName : RefName)
    (before : Option Sha40)
    (command : Command)
    (world : World) :
    HidesNone bucketPrefix world
        (perform bucketPrefix refName world command).2 ∨
      (perform bucketPrefix refName world command).1 = true ∧
        Hides bucketPrefix world
          (perform bucketPrefix refName world command).2
          (fun other named =>
            other = refName ∧ tipAfter before command ≠ some named) := by
  cases command with
  | push repo zip force localSpec ttl now =>
      rw [perform, report_snd, report_fst_iff]
      rcases
          hides_pushOne bucketPrefix repo zip force localSpec ttl now
            world with
        none | ⟨⟨other, reported⟩, hides⟩
      · exact Or.inl none
      · right
        refine ⟨⟨_, reported, rfl⟩, ?_⟩
        intro other named hidden
        rcases hides other named hidden with
          before | ⟨same, pushes, different⟩
        · exact Or.inl before
        · refine Or.inr ⟨same, ?_⟩
          rwa [tipAfter, pushed?, if_neg pushes]
  | deleteBranch confirmed ttl =>
      rw [perform, report_snd, report_fst_iff]
      rcases hides_deleteBranch confirmed ttl world with
        none | ⟨⟨count, reported⟩, hides⟩
      · exact Or.inl none
      · right
        refine ⟨⟨_, reported, rfl⟩, ?_⟩
        intro other named hidden
        rcases hides other named hidden with before | same
        · exact Or.inl before
        · exact Or.inr ⟨same, by simp [tipAfter]⟩
  | mark completion dryRun =>
      left
      rw [perform, report_snd]
      exact hidesNone_mark completion dryRun world
  | sweep scans opts =>
      left
      rw [perform, report_snd]
      exact fun refName sha hidden =>
        Or.inl ((collected_sweep scans opts world).tombstoned hidden)
  | wait duration => exact Or.inl (.refl world)

/-- No tip is hidden. -/
def Uncovered (bucketPrefix : Option Text) (state : Branches) : Prop :=
  ∀ refName sha,
    state.tips refName = some sha →
      ¬ state.world.Tombstoned bucketPrefix refName sha

omit [Platform] in
theorem tipAfter_eq_some
    {before : Option Sha40}
    {command : Command}
    {sha : Sha40}
    (tip : tipAfter before command = some sha) :
    pushed? command = some sha ∨ before = some sha := by
  cases command with
  | push repo zip force localSpec ttl now => exact Or.inl tip
  | deleteBranch confirmed ttl => cases tip
  | _ => exact Or.inr tip

/-- A push that no tombstone forestalls keeps every tip uncovered. -/
theorem Uncovered.turn
    {state : Branches}
    {action : RefName × Command}
    (uncovered : Uncovered bucketPrefix state)
    (fresh : Fresh bucketPrefix state action) :
    Uncovered bucketPrefix (turn bucketPrefix state action) := by
  rcases action with ⟨refName, command⟩
  intro other sha tip hidden
  have known :
      state.world.Tombstoned bucketPrefix other sha ∨
        (perform bucketPrefix refName state.world command).1 = true ∧
          other = refName ∧
          tipAfter (state.tips refName) command ≠ some sha := by
    rcases
        hides_perform bucketPrefix refName (state.tips refName) command
          state.world with
      none | ⟨done, hides⟩
    · exact (none other sha hidden).imp_right False.elim
    · exact (hides other sha hidden).imp_right fun new => ⟨done, new⟩
  cases done :
      (perform bucketPrefix refName state.world command).1 with
  | false =>
      simp only [SweepSafety.turn, done, Bool.false_eq_true, if_false,
        false_and, or_false] at tip known
      exact uncovered other sha tip known
  | true =>
      simp only [SweepSafety.turn, done, if_true, true_and] at tip known
      by_cases same : other = refName
      · subst same
        rw [Function.update_self] at tip
        rcases known with before | ⟨-, different⟩
        · rcases tipAfter_eq_some tip with pushes | kept
          · exact fresh done sha pushes before
          · exact uncovered other sha kept before
        · exact different tip
      · rw [Function.update_of_ne same] at tip
        rcases known with before | ⟨equal, -⟩
        · exact uncovered other sha tip before
        · exact same equal

/-- What a sweep leaves of a bundle it may not remove. -/
theorem get?_swept_of_kept
    {sha : Sha40}
    (kept : ¬ Collectable bucketPrefix world refName sha)
    (scans : Scans)
    (opts : SweepOpts) :
    (run answer (sweep scans (prefixText bucketPrefix) opts) world).2.get?
        (bundleKey bucketPrefix refName sha) =
      world.get? (bundleKey bucketPrefix refName sha) := by
  have collected :
      Collected bucketPrefix world
        (run answer (sweep scans (prefixText bucketPrefix) opts) world).2 :=
    collected_sweep scans opts world
  rcases collected.removed (bundleKey bucketPrefix refName sha) with
    same | gone
  · exact same
  · rw [gone]
    by_contra present
    apply kept
    apply collected.bundles refName sha
    · rw [World.slot?, World.body?, ← bundleKey_eq, Option.isSome_map]
      exact Option.isSome_iff_ne_none.2 (Ne.symm present)
    · rw [World.slot?, World.body?, ← bundleKey_eq, gone]
      rfl

variable (bucketPrefix)

/--
In every run whose pushes no tombstone forestalls, no sweep touches the
bundle of the tip of a reference; and on no bucket at all does a sweep touch
the baseline of a chain.
-/
theorem sweep_keeps_tips (clock : Int) :
    (∀ state,
      (advance bucketPrefix).Reaches (Fresh bucketPrefix)
          (start clock) state →
        ∀ scans opts refName sha,
          state.tips refName = some sha →
            (run answer (sweep scans (prefixText bucketPrefix) opts)
                state.world).2.get? (bundleKey bucketPrefix refName sha) =
              state.world.get? (bundleKey bucketPrefix refName sha)) ∧
      ∀ world scans opts refName chain,
        world.chain? bucketPrefix refName = some chain →
          (run answer (sweep scans (prefixText bucketPrefix) opts)
              world).2.get?
              (bundleKey bucketPrefix refName chain.fullAt) =
            world.get? (bundleKey bucketPrefix refName chain.fullAt) := by
  constructor
  · intro state reached scans opts refName sha tip
    have initial :
        Uncovered bucketPrefix (start clock) := by
      intro refName sha tip
      cases tip
    have uncovered : Uncovered bucketPrefix state := by
      refine Machine.Reaches.invariant initial ?_ reached
      intro before action after uncovered fresh advanced
      cases advanced
      exact uncovered.turn fresh
    apply get?_swept_of_kept
    intro collectable
    exact uncovered refName sha tip collectable.1
  · intro world scans opts refName chain present
    apply get?_swept_of_kept
    intro collectable
    exact collectable.2 chain present rfl

end Tips

/-! ## A commit pushed again -/

section Again

attribute [local instance] Platform.simple

/-- The state after a first push to `refs/heads/main`. -/
def pushedOnce : Branches :=
  turn none (start 0) (.main, force 'a')

/-- The state after another commit, the first again, and a day. -/
def pushedAgain : Branches :=
  turn none
    (turn none (turn none pushedOnce (.main, force 'b'))
      (.main, force 'a'))
    (.main, .wait (25 * hour))

/-- A sweep past the grace window removes the bundle of the tip. -/
theorem not_sweep_keeps_tips :
    ¬ ∀ (bucketPrefix : Option Text) (clock : Int) (state : Branches),
      (advance bucketPrefix).Reaches (fun _ _ => True) (start clock)
          state →
        ∀ scans opts refName sha,
          state.tips refName = some sha →
            (run answer (sweep scans (prefixText bucketPrefix) opts)
                state.world).2.get? (bundleKey bucketPrefix refName sha) =
              state.world.get? (bundleKey bucketPrefix refName sha) := by
  intro claim
  have once :
      (advance none).Reaches (fun _ _ => True) (start 0) pushedOnce :=
    Machine.Reaches.refl.step trivial rfl
  have again :
      (advance none).Reaches (fun _ _ => True) (start 0) pushedAgain :=
    ((once.step trivial rfl).step trivial rfl).step trivial rfl
  have tip : pushedAgain.tips .main = some (digitSha 'a' hex_a) := by
    decide +kernel
  have same :=
    claim none 0 pushedAgain again .inOrder ⟨24, false⟩ .main
      (digitSha 'a' hex_a) tip
  have present :
      (pushedAgain.world.get?
        (bundleKey none .main (digitSha 'a' hex_a))).isSome = true := by
    decide +kernel
  rw [← same] at present
  revert present
  decide +kernel

/-- The state after a second commit has superseded the first, and a day. -/
def supersededOnce : Branches :=
  turn none (turn none pushedOnce (.main, force 'b'))
    (.main, .wait (25 * hour))

/-- A chain whose baseline an old tombstone names. -/
def repointed : World :=
  let sha := digitSha 'a' hex_a
  let world : World := .empty (25 * hour)
  let world := world.put (bundleKey none .main sha) (.file [])
  let world :=
    world.put (chainKey none .main)
      (.chain ⟨ChainManifest.schemaVersion, sha, sha, []⟩)
  world.put (baselineTombstoneKey [] (Platform.uuid 0))
    (.baselineTombstone ⟨1, some 0, RefName.main.text, sha⟩)

/--
A sweep removes the superseded bundle and leaves the tip alone; and it
removes a tombstone but not the baseline that the tombstone names.
-/
theorem sweep_keeps_tips_superseded :
    ((run answer (sweep .inOrder [] ⟨24, false⟩)
            supersededOnce.world).2.get?
          (bundleKey none .main (digitSha 'a' hex_a)) = none ∧
        (run answer (sweep .inOrder [] ⟨24, false⟩)
            supersededOnce.world).2.get?
            (bundleKey none .main (digitSha 'b' hex_b)) =
          supersededOnce.world.get?
            (bundleKey none .main (digitSha 'b' hex_b))) ∧
      (run answer (sweep .inOrder [] ⟨24, false⟩) repointed).2.get?
          (baselineTombstoneKey [] (Platform.uuid 0)) = none ∧
        (run answer (sweep .inOrder [] ⟨24, false⟩) repointed).2.get?
            (bundleKey none .main (digitSha 'a' hex_a)) =
          repointed.get? (bundleKey none .main (digitSha 'a' hex_a)) := by
  refine ⟨⟨by decide +kernel, ?_⟩, by decide +kernel, ?_⟩
  · have first : Fresh none (start 0) (.main, force 'a') := by
      rintro - sha - ⟨key, record, -, stored, -⟩
      cases stored
    have second : Fresh none pushedOnce (.main, force 'b') := by
      intro _ sha pushed
      have own : sha = digitSha 'b' hex_b :=
        Option.some.inj
          (pushed.symm.trans (LocalRepo.resolve_linear hex_b))
      rw [own, ← bundleKey_mem_hiddenKeys]
      decide +kernel
    have third :
        Fresh none (turn none pushedOnce (.main, force 'b'))
          (.main, .wait (25 * hour)) := by
      intro _ sha pushed
      cases pushed
    have reached :
        (advance none).Reaches (Fresh none) (start 0) supersededOnce :=
      ((Machine.Reaches.refl.step first rfl).step second rfl).step third
        rfl
    exact
      (sweep_keeps_tips none 0).1 supersededOnce reached .inOrder
        ⟨24, false⟩ .main (digitSha 'b' hex_b) (by decide +kernel)
  · exact
      (sweep_keeps_tips none 0).2 repointed .inOrder ⟨24, false⟩ .main
        ⟨ChainManifest.schemaVersion, digitSha 'a' hex_a,
          digitSha 'a' hex_a, []⟩
        (by decide +kernel)

end Again

end GitRemoteObjectStore.SweepSafety
