import GitRemoteObjectStore.Library.Faults
import GitRemoteObjectStore.DoctorEffects

/-!
# Evictions that fail on the way

An eviction into quarantine copies a bundle and then deletes the original.
Whatever call fails, with or without effect, and wherever the run stops, a
bundle is where it was or in quarantine.
-/

namespace GitRemoteObjectStore.Doctor

open CallProgram Prog Separated

section Faults

variable
    [Platform]
    {bucketPrefix : Option Text}
    {opts : DoctorOpts}
    {refPath : Text}

/-! ## What no failure loses -/

/-- Nothing is stored under the suffixes that are drawn next. -/
def FreshSuffixes
    (bucketPrefix : Option Text)
    (refPath : Text)
    (world : World) : Prop :=
  ∀ number, world.drawn ≤ number →
    ∀ sha,
      world.get?
        (quarantineKey bucketPrefix refPath (Platform.uuid number) sha) =
          none

/-- A bundle drawn into quarantine since `start`. -/
def Quarantined
    (bucketPrefix : Option Text)
    (refPath : Text)
    (start world : World)
    (sha : Sha40)
    (body : Body) : Prop :=
  ∃ number,
    start.drawn ≤ number ∧ number < world.drawn ∧
      world.body?
        (quarantineKey bucketPrefix refPath (Platform.uuid number) sha) =
          some body

/-- What was stored at `start` is there, but for losers in quarantine. -/
structure Preserved
    (bucketPrefix : Option Text)
    (refPath : Text)
    (evicting : List Sha40)
    (start world : World) : Prop where
  drawn : start.drawn ≤ world.drawn
  bodies :
    ∀ key body,
      start.body? key = some body →
        world.body? key = some body ∨
          ∃ losing ∈ evicting,
            key = bundleAt bucketPrefix refPath losing ∧
              Quarantined bucketPrefix refPath start world losing body
  originals :
    ∀ sha body,
      world.body? (bundleAt bucketPrefix refPath sha) = some body →
        start.body? (bundleAt bucketPrefix refPath sha) = some body

section Preserved

variable
    {evicting : List Sha40}
    {start world : World}
    {losing : Sha40}

omit [Platform] in
theorem quarantineKey_ne (runId : Component) (sha other : Sha40) :
    quarantineKey bucketPrefix refPath runId sha ≠
      bundleAt bucketPrefix refPath other := by
  rw [quarantineKey_eq]
  intro same
  exact quarantinePath_ne refPath runId (bundleAt_inj.1 same).1

theorem Preserved.refl :
    Preserved bucketPrefix refPath evicting world world :=
  ⟨le_rfl, fun _ _ stored => Or.inl stored, fun _ _ stored => stored⟩

theorem Preserved.draw
    (preserved : Preserved bucketPrefix refPath evicting start world) :
    Preserved bucketPrefix refPath evicting start
      { world with drawn := world.drawn + 1 } := by
  refine ⟨Nat.le_succ_of_le preserved.drawn, ?_, preserved.originals⟩
  intro key body stored
  rcases preserved.bodies key body stored with
    same | ⟨losing, member, at_, number, after, before, found⟩
  · exact Or.inl same
  · exact
      Or.inr
        ⟨losing, member, at_, number, after, Nat.lt_succ_of_lt before,
          found⟩

/-- A copy into quarantine overwrites nothing but copies of the same. -/
theorem Preserved.copied
    (fresh : FreshSuffixes bucketPrefix refPath start)
    {number : Nat}
    (after : start.drawn ≤ number)
    {body : Body}
    (stored :
      world.body? (bundleAt bucketPrefix refPath losing) = some body)
    (preserved : Preserved bucketPrefix refPath evicting start world) :
    Preserved bucketPrefix refPath evicting start
      (world.put
        (quarantineKey bucketPrefix refPath (Platform.uuid number) losing)
        body) := by
  have original := preserved.originals losing body stored
  refine ⟨preserved.drawn, ?_, ?_⟩
  · intro key found there
    rcases preserved.bodies key found there with
      same | ⟨other, member, rfl, earlier, since, drawn, moved⟩
    · left
      have different :
          key ≠
            quarantineKey bucketPrefix refPath (Platform.uuid number)
              losing := by
        rintro rfl
        have absent := fresh number after losing
        unfold World.body? at there
        rw [absent] at there
        cases there
      rw [World.body?_put, if_neg different]
      exact same
    · right
      refine ⟨other, member, rfl, earlier, since, drawn, ?_⟩
      rw [World.body?_put]
      split
      next same =>
          rw [quarantineKey_eq, quarantineKey_eq, bundleAt_inj] at same
          rcases same with ⟨-, rfl⟩
          rw [original] at there
          exact there
      next => exact moved
  · intro sha found there
    rw [World.body?_put,
      if_neg (quarantineKey_ne (Platform.uuid number) losing sha).symm]
      at there
    exact preserved.originals sha found there

/-- A bundle with a copy in quarantine may go. -/
theorem Preserved.removed
    (member : losing ∈ evicting)
    {body : Body}
    (copied : Quarantined bucketPrefix refPath start world losing body)
    (stored :
      world.body? (bundleAt bucketPrefix refPath losing) = some body)
    (preserved : Preserved bucketPrefix refPath evicting start world) :
    Preserved bucketPrefix refPath evicting start
      (world.remove (bundleAt bucketPrefix refPath losing)) := by
  have stays
      {sha : Sha40}
      {found : Body}
      (moved : Quarantined bucketPrefix refPath start world sha found) :
      Quarantined bucketPrefix refPath start
        (world.remove (bundleAt bucketPrefix refPath losing)) sha
        found := by
    rcases moved with ⟨number, since, drawn, there⟩
    refine ⟨number, since, drawn, ?_⟩
    rw [World.body?_remove, if_neg (quarantineKey_ne _ _ _)]
    exact there
  refine ⟨preserved.drawn, ?_, ?_⟩
  · intro key found there
    rcases preserved.bodies key found there with
      same | ⟨other, inside, at_, moved⟩
    · by_cases gone : key = bundleAt bucketPrefix refPath losing
      · subst gone
        rw [stored] at same
        cases same
        exact Or.inr ⟨losing, member, rfl, stays copied⟩
      · left
        rw [World.body?_remove, if_neg gone]
        exact same
    · exact Or.inr ⟨other, inside, at_, stays moved⟩
  · intro sha found there
    rw [World.body?_remove] at there
    split at there
    · cases there
    · exact preserved.originals sha found there

end Preserved

/-! ## An eviction, call by call -/

section Eviction

variable
    {ε : Type}
    {plan : FaultPlan Call ObjectStoreError}
    {evicting : List Sha40}
    {start : World}
    {losing : Sha40}
    {state : World × Nat}

/-- What the calls of an eviction keep under a plan. -/
abbrev preserving
    (bucketPrefix : Option Text)
    (refPath : Text)
    (evicting : List Sha40)
    (start : World) : Contract Call (World × Nat) :=
  .alone fun state =>
    Preserved bucketPrefix refPath evicting start state.1

/-- A suffix that was drawn since `start`. -/
def Drawn (start world : World) (runId : Component) : Prop :=
  ∃ number,
    start.drawn ≤ number ∧ number < world.drawn ∧
      runId = Platform.uuid number

theorem safe_newUuid :
    Safe (preserving bucketPrefix refPath evicting start)
      (faulty answer failed plan)
      (whenOk fun runId later => Drawn start later.1 runId)
      (newUuid : Program ε Component) state := by
  rcases state with ⟨world, count⟩
  apply safe_faulty
  · intro preserved
    refine ⟨preserved.draw, ?_⟩
    rintro _ rfl -
    exact
      ⟨world.drawn, preserved.drawn, Nat.lt_succ_self world.drawn, rfl⟩
  · intro fault reply later _ broke
    cases broke

/-- A copy that is reported done is in place. -/
theorem safe_copy
    (fresh : FreshSuffixes bucketPrefix refPath start)
    {runId : Component}
    (drawn : Drawn start state.1 runId) :
    Safe (preserving bucketPrefix refPath evicting start)
      (faulty answer failed plan)
      (whenOk fun _ later =>
        ∃ body,
          later.1.body? (bundleAt bucketPrefix refPath losing) =
              some body ∧
            Quarantined bucketPrefix refPath start later.1 losing body)
      (copy (bundleAt bucketPrefix refPath losing)
        (quarantineKey bucketPrefix refPath runId losing)) state := by
  rcases state with ⟨world, count⟩
  rcases drawn with ⟨number, since, before, rfl⟩
  apply safe_faulty
  · intro preserved
    cases found :
        world.get? (bundleAt bucketPrefix refPath losing) with
    | none =>
        simp only [answer, found]
        exact ⟨preserved, fun _ _ _ => trivial⟩
    | some object =>
        have stored :
            world.body? (bundleAt bucketPrefix refPath losing) =
              some object.body := by
          rw [World.body?, found]
          rfl
        simp only [answer, found]
        refine ⟨preserved, ?_⟩
        apply safe_faulty
        · intro again
          refine ⟨again.copied fresh since stored, ?_⟩
          rintro _ rfl -
          have original := World.body?_put world
            (quarantineKey bucketPrefix refPath (Platform.uuid number) losing)
            object.body (bundleAt bucketPrefix refPath losing)
          rw [if_neg (quarantineKey_ne _ _ _).symm, stored] at original
          have moved := World.body?_put world
            (quarantineKey bucketPrefix refPath (Platform.uuid number) losing)
            object.body
            (quarantineKey bucketPrefix refPath (Platform.uuid number) losing)
          rw [if_pos rfl] at moved
          exact ⟨object.body, original, number, since, before, moved⟩
        · intro fault reply later _ broke _ _ _
          cases broke
          exact fun _ _ _ => trivial
  · intro fault reply later _ broke _ _ _
    cases broke
    exact fun _ _ _ => trivial

theorem safe_deleteCopied
    (member : losing ∈ evicting)
    {body : Body}
    (stored :
      state.1.body? (bundleAt bucketPrefix refPath losing) = some body)
    (copied : Quarantined bucketPrefix refPath start state.1 losing body) :
    Safe (preserving bucketPrefix refPath evicting start)
      (faulty answer failed plan) (whenOk fun _ _ => True)
      (deleteIdempotent (bundleAt bucketPrefix refPath losing)) state := by
  rcases state with ⟨world, count⟩
  apply safe_faulty
  · intro preserved
    cases found :
        world.get? (bundleAt bucketPrefix refPath losing) with
    | none =>
        rw [World.body?, found] at stored
        cases stored
    | some object =>
        simp only [answer, found]
        exact
          ⟨preserved.removed member copied stored, fun _ _ _ => trivial⟩
  · intro fault reply later _ broke _ _ _
    cases broke
    cases fault.error <;> exact fun _ _ _ => trivial

theorem safe_head {key : Text} :
    Safe (preserving bucketPrefix refPath evicting start)
      (faulty answer failed plan) (fun _ _ => True) (Store.head key)
      state := by
  rcases state with ⟨world, count⟩
  apply safe_faulty
  · intro preserved
    cases found : world.get? key with
    | none =>
        simp only [answer, found]
        exact ⟨preserved, fun _ _ _ => trivial⟩
    | some object =>
        simp only [answer, found]
        exact ⟨preserved, fun _ _ _ => trivial⟩
  · intro fault reply later _ broke _ _ _
    cases broke
    exact fun _ _ _ => trivial

/-- Nothing is lost while one bundle is moved. -/
theorem safe_evictLosingBundle
    (quarantines : opts.deleteBundle = false)
    (fresh : FreshSuffixes bucketPrefix refPath start)
    {entry : BundleEntry}
    (key : entry.key = bundleAt bucketPrefix refPath entry.sha)
    (member : entry.sha ∈ evicting) :
    Safe (preserving bucketPrefix refPath evicting start)
      (faulty answer failed plan) (whenOk fun _ _ => True)
      (evictLosingBundle bucketPrefix opts refPath entry) state := by
  unfold evictLosingBundle
  rw [quarantines, key]
  refine safe_newUuid.andThen fun runId afterDraw _ drawn => ?_
  refine (safe_copy fresh drawn).attempt.andThen ?_
  rintro (error | _) afterCopy - copied
  · cases error <;> exact fun _ _ _ => trivial
  · rcases copied with ⟨body, stored, moved⟩
    exact (safe_deleteCopied member stored moved).convert

/-- Nothing is lost while several are. -/
theorem safe_evictLosers
    (quarantines : opts.deleteBundle = false)
    (fresh : FreshSuffixes bucketPrefix refPath start)
    {entries : List BundleEntry}
    (losing :
      ∀ entry ∈ entries,
        entry.key = bundleAt bucketPrefix refPath entry.sha ∧
          entry.sha ∈ evicting) :
    Safe (preserving bucketPrefix refPath evicting start)
      (faulty answer failed plan) (whenOk fun _ _ => True)
      (forEach (evictLosingBundle bucketPrefix opts refPath) entries)
      state := by
  refine
    (safe_foldEach (fun _ remaining _ => remaining ⊆ entries) ?_ ?_
      (List.Subset.refl entries)).weaken ?_
  · exact fun _ _ _ _ _ inside => inside
  · intro _ entry remaining later _ inside
    rcases losing entry (inside List.mem_cons_self) with ⟨key, member⟩
    refine (safe_evictLosingBundle quarantines fresh key member).weaken ?_
    intro outcome last _ _
    cases outcome with
    | ok _ => exact fun _ rest => inside (List.mem_cons_of_mem entry rest)
    | error error => trivial
  · intro outcome later _ _
    cases outcome <;> trivial

end Eviction

/-! ## The whole repair -/

section Repair

variable
    {plan : FaultPlan Call ObjectStoreError}
    {prompter : Prompter}
    {snapshot : RepoSnapshot}
    {start : World}
    {state : World × Nat}

/-- The bundles evicted beside the one that is kept. -/
def evictedBeside
    (prompter : Prompter)
    (snapshot : RepoSnapshot)
    (refPath : Text) : List Sha40 :=
  match prompter.select refPath with
  | .error _ => []
  | .ok keepIdx =>
      match (snapshot.bundlesAt refPath)[keepIdx]? with
      | none => []
      | some keeper => losers (snapshot.bundlesAt refPath) keeper.sha

theorem safe_fixMultipleBundles
    (quarantines : opts.deleteBundle = false)
    (keyed : snapshot.WellKeyed bucketPrefix)
    (fresh : FreshSuffixes bucketPrefix refPath start) :
    Safe
      (preserving bucketPrefix refPath
        (evictedBeside prompter snapshot refPath) start)
      (faulty answer failed plan) (whenOk fun _ _ => True)
      (fixMultipleBundles bucketPrefix opts prompter snapshot refPath)
      state := by
  unfold fixMultipleBundles
  cases found : snapshot.refs.lookup refPath with
  | none => exact safe_fail
  | some refEntry =>
      apply Safe.check
      intro keepIdx selected
      cases chosen : refEntry.bundles[keepIdx]? with
      | none => exact safe_fail
      | some keeper =>
          have evicting :
              evictedBeside prompter snapshot refPath =
                losers refEntry.bundles keeper.sha := by
            unfold evictedBeside
            rw [selected, bundlesAt_of_lookup found]
            simp only [chosen]
          rw [evicting]
          apply Safe.check
          intro confirmed _
          cases confirmed with
          | false => exact safe_end
          | true =>
              refine safe_head.attempt.andThen ?_
              rintro (error | _) afterHead - -
              · cases error <;> exact safe_fail
              · refine
                  (safe_evictLosers quarantines fresh ?_).andThen
                    fun _ _ _ _ => safe_end
                intro entry member
                rw [List.mem_filter] at member
                constructor
                · apply keyed refPath entry
                  rw [bundlesAt_of_lookup found]
                  exact member.1
                · exact
                    List.mem_map.2 ⟨entry, List.mem_filter.2 member, rfl⟩

/--
Whatever fails while bundles are moved into quarantine, and wherever the run
stops: every stored body is where it was, or it is a losing bundle's and in
quarantine; the keeper is where it was.
-/
theorem fixMultipleBundles_preserves
    {bucketPrefix : Option Text}
    {opts : DoctorOpts}
    {snapshot : RepoSnapshot}
    {refPath : Text}
    {world : World}
    (quarantines : opts.deleteBundle = false)
    (keyed : snapshot.WellKeyed bucketPrefix)
    (fresh : FreshSuffixes bucketPrefix refPath world)
    (prompter : Prompter)
    (plan : FaultPlan Call ObjectStoreError)
    (count : Nat) :
    let last :=
      (stateAfter (faulty answer failed plan) count
        (fixMultipleBundles bucketPrefix opts prompter snapshot refPath)
        (world, 0)).1
    (∀ key body,
      world.body? key = some body →
        last.body? key = some body ∨
          ∃ losing ∈ evictedBeside prompter snapshot refPath,
            key = bundleAt bucketPrefix refPath losing ∧
              Quarantined bucketPrefix refPath world last losing body) ∧
      ∀ keepIdx keeper,
        prompter.select refPath = .ok keepIdx →
          (snapshot.bundlesAt refPath)[keepIdx]? = some keeper →
            last.body? keeper.key = world.body? keeper.key := by
  intro last
  have safe :
      Safe
        (preserving bucketPrefix refPath
          (evictedBeside prompter snapshot refPath) world)
        (faulty answer failed plan) (whenOk fun _ _ => True)
        (fixMultipleBundles bucketPrefix opts prompter snapshot refPath)
        (world, 0) :=
    safe_fixMultipleBundles quarantines keyed fresh
  have preserved :
      Preserved bucketPrefix refPath
        (evictedBeside prompter snapshot refPath) world last := by
    apply safe.throughout (fun _ _ => trivial)
    exact Preserved.refl
  refine ⟨preserved.bodies, ?_⟩
  intro keepIdx keeper selected chosen
  have key := keyed refPath keeper (List.mem_of_getElem? chosen)
  have stays :
      keeper.sha ∉ evictedBeside prompter snapshot refPath := by
    unfold evictedBeside losers
    rw [selected]
    simp [chosen]
  rw [key]
  cases found :
      world.body? (bundleAt bucketPrefix refPath keeper.sha) with
  | none =>
      cases there :
          last.body? (bundleAt bucketPrefix refPath keeper.sha) with
      | none => rfl
      | some body =>
          rw [preserved.originals keeper.sha body there] at found
          cases found
  | some body =>
      rcases preserved.bodies _ body found with
        same | ⟨losing, member, at_, -⟩
      · exact same
      · rw [(bundleAt_inj.1 at_).2] at stays
        exact absurd member stays

end Repair

end Faults

section Schedules

attribute [local instance] Platform.simple

/-- A branch with two bundles. -/
def twoBundles : World :=
  let ref := lit "refs/heads/main"
  ((World.empty 0).put (bundleAt none ref (digitSha 'a' hex_a))
    (.file [1])).put (bundleAt none ref (digitSha 'b' hex_b)) (.file [2])

/-- The bundles listed under that branch. -/
def twoListed : RepoSnapshot :=
  let ref := lit "refs/heads/main"
  { RepoSnapshot.empty with
    refs :=
      RepoSnapshot.empty.refs.insert ref
        ⟨false,
          [⟨digitSha 'a' hex_a, bundleAt none ref (digitSha 'a' hex_a), 0⟩,
            ⟨digitSha 'b' hex_b, bundleAt none ref (digitSha 'b' hex_b), 0⟩],
          false⟩ }

theorem wellKeyed_twoListed : twoListed.WellKeyed none := by
  intro refPath entry member
  unfold twoListed RepoSnapshot.bundlesAt at member
  by_cases same : refPath = lit "refs/heads/main"
  · subst same
    rw [AList.lookup_insert] at member
    rcases List.mem_cons.1 member with rfl | member
    · rfl
    · rw [List.mem_singleton.1 member]
  · rw [AList.lookup_insert_ne same] at member
    cases member

theorem freshSuffixes_twoBundles :
    FreshSuffixes none (lit "refs/heads/main") twoBundles := by
  intro number _ sha
  unfold twoBundles
  rw [World.get?_put_ne _ _ _ (quarantineKey_ne _ _ _),
    World.get?_put_ne _ _ _ (quarantineKey_ne _ _ _), World.get?_empty]

/-- The deletion after the copy fails, and the run stops. -/
theorem fixMultipleBundles_preserves_twoBundles :
    (stateAfter
        (faulty answer failed fun number _ =>
          if number = 4 then some ⟨.network, false⟩ else none) 5
        (fixMultipleBundles none .standard
          (.keeping (lit "refs/heads/main") 1) twoListed
          (lit "refs/heads/main"))
        (twoBundles, 0)).1.body?
        (bundleAt none (lit "refs/heads/main") (digitSha 'b' hex_b)) =
      twoBundles.body?
        (bundleAt none (lit "refs/heads/main") (digitSha 'b' hex_b)) :=
  (fixMultipleBundles_preserves rfl wellKeyed_twoListed
    freshSuffixes_twoBundles (.keeping (lit "refs/heads/main") 1)
    (fun number _ => if number = 4 then some ⟨.network, false⟩ else none)
    5).2 1
    ⟨digitSha 'b' hex_b,
      bundleAt none (lit "refs/heads/main") (digitSha 'b' hex_b), 0⟩
    (by simp [Prompter.keeping]) (by decide +kernel)

end Schedules

end GitRemoteObjectStore.Doctor
