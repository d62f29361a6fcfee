import GitRemoteObjectStore.ChainShape
import GitRemoteObjectStore.ProtectedHistories
import GitRemoteObjectStore.Library.Registers

/-!
# References as registers

Any number of clients push to, force, delete and compact any references of a
packchain repository, each locked section being one step.  What `list` shows
then behaves as registers, one for each reference, that a push advances from
the tip it has seen and a forced push replaces.  What happens to them is what
the clients are told: a section that reports an error has changed no
reference, and neither has a compaction.
-/

namespace GitRemoteObjectStore.RefRegisters

open CallProgram Prog Packchain Registers
open ProtectedHistories (Truthful)

section Refinement

variable
    [Platform]
    {bucketPrefix : Option Text}
    {ahead : Sha → Sha → Prop}

/-! ## What the registers hold -/

/-- The tip of each stored chain. -/
def tips
    (bucketPrefix : Option Text)
    (world : World)
    (refName : RefName) : Option Sha :=
  (world.chain? bucketPrefix refName).map ChainManifest.tip

theorem tips_congr
    {before after : World}
    {refName : RefName}
    (same :
      after.slot? bucketPrefix (.ref refName .chain) =
        before.slot? bucketPrefix (.ref refName .chain)) :
    tips bucketPrefix after refName = tips bucketPrefix before refName := by
  unfold World.slot? at same
  unfold tips World.chain?
  rw [chainKey_eq, same]

theorem tips_of_stored
    {world : World}
    {refName : RefName}
    {chain : ChainManifest}
    (stored :
      world.slot? bucketPrefix (.ref refName .chain) =
        some (.chain chain))
    (version : chain.v = ChainManifest.schemaVersion) :
    tips bucketPrefix world refName = some chain.tip := by
  rw [World.slot?, ← chainKey_eq] at stored
  have found : world.chain? bucketPrefix refName = some chain :=
    (World.chain?_eq_some_iff _ _).2 ⟨stored, version⟩
  rw [tips, found, Option.map_some]

theorem tips_of_gone
    {world : World}
    {refName : RefName}
    (gone :
      world.slot? bucketPrefix (.ref refName .chain) = none) :
    tips bucketPrefix world refName = none := by
  rw [World.slot?, ← chainKey_eq] at gone
  unfold tips World.chain?
  rw [gone]
  rfl

theorem tips_of_apart
    {request : Call}
    (apart : ChainShape.Apart bucketPrefix request)
    (world : World) :
    tips bucketPrefix (answer request world).2 =
      tips bucketPrefix world := by
  funext refName
  exact tips_congr (body?_answer_of_not_writes (apart refName).1 world)

/-! ## What a locked section tells -/

/-- The references a deletion clears: its own and those below it. -/
def cleared (refName : RefName) : Set RefName :=
  {other | (Slot.ref other .chain).Under refName}

/-- What a push under the lock tells by its outcome. -/
def pushTold (ready : ReadyState) :
    Except PushError PushOutcome → Event RefName Sha
  | .ok (.ok refName) =>
      if ready.force then .replace refName ready.localSha
      else
        .advance refName (ready.prior.map ChainManifest.tip)
          ready.localSha
  | _ => .quiet

/-- What a deletion tells by its outcome. -/
def deleteTold : Except PushError PushOutcome → Event RefName Sha
  | .ok (.ok refName) => .clear (cleared refName)
  | _ => .quiet

/-- What a branch deletion tells by its outcome. -/
def deleteBranchTold (refName : RefName) :
    Except ManageError DeleteBranchResult → Event RefName Sha
  | .ok (.deleted _) => .clear (cleared refName)
  | _ => .quiet

/-- What a locked section tells. -/
def sectionTold
    (bucketPrefix : Option Text)
    (refName : RefName)
    (world : World) : Task → Event RefName Sha
  | .push repo ready =>
      pushTold ready
        (run answer (performPushUnderLock bucketPrefix repo ready) world).1
  | .delete =>
      deleteTold
        (run answer (deleteUnderLock bucketPrefix refName) world).1
  | .deleteBranch =>
      deleteBranchTold refName
        (run answer (deleteBranchUnderLock bucketPrefix refName) world).1
  | .compact _ => .quiet

/-- A deletion clears the references at and below its own, and no others. -/
theorem turns_cleared (refName : RefName) (world : World) :
    (Event.clear (cleared refName)).Turns ahead
      (tips bucketPrefix world)
      (tips bucketPrefix (sweptRef bucketPrefix refName world)) := by
  constructor
  · intro other under
    exact
      tips_of_gone
        (slot?_sweptRef_of_under under (by simp) (by simp))
  · intro other aside
    exact tips_congr (slot?_sweptRef_of_not_under aside (by simp))

theorem turns_delete (refName : RefName) (world : World) :
    (sectionTold bucketPrefix refName world .delete).Turns ahead
      (tips bucketPrefix world)
      (tips bucketPrefix
        (run answer (deleteUnderLock bucketPrefix refName) world).2) := by
  unfold sectionTold
  by_cases refused :
      world.get? (chainKey bucketPrefix refName) = none ∨
        entriesHaveProtectedMarker
            (world.listing (refListingPrefix bucketPrefix refName)) =
          true
  · rcases run_deleteUnderLock_refused refused with ⟨message, ran⟩
    rw [ran]
    rfl
  · rw [not_or] at refused
    rw [run_deleteUnderLock (Option.isSome_iff_ne_none.2 refused.1)
      (Bool.eq_false_iff.2 refused.2)]
    exact turns_cleared refName world

theorem turns_deleteBranch (refName : RefName) (world : World) :
    (sectionTold bucketPrefix refName world .deleteBranch).Turns ahead
      (tips bucketPrefix world)
      (tips bucketPrefix
        (run answer (deleteBranchUnderLock bucketPrefix refName)
          world).2) := by
  unfold sectionTold
  by_cases deletes : BranchDeletes bucketPrefix refName world
  · rcases run_deleteBranchUnderLock deletes with ⟨count, ran⟩
    rw [ran]
    exact turns_cleared refName world
  · rcases run_deleteBranchUnderLock_refused deletes with
      ⟨undeleted, unchanged⟩
    rw [unchanged]
    simp only
    cases outcome :
        (run answer (deleteBranchUnderLock bucketPrefix refName)
          world).1 with
    | error error => rfl
    | ok result =>
        cases result with
        | deleted count => exact absurd outcome (undeleted count)
        | _ => rfl

/-- A compaction moves no tip. -/
theorem turns_compact
    (scratch : Scratch)
    (refName : RefName)
    (world : World) :
    (sectionTold bucketPrefix refName world (.compact scratch)).Turns ahead
      (tips bucketPrefix world)
      (tips bucketPrefix
        (run answer (compactUnderLock bucketPrefix scratch refName)
          world).2) := by
  change _ = _
  rcases run_compactUnderLock scratch refName world with
    ⟨chain, directory, built, loaded, -, -, ran⟩ | ⟨error, ran⟩
  · rw [ran]
    funext other
    by_cases own : other = refName
    · subst own
      have stored :
          (compacted bucketPrefix other chain built world).slot?
              bucketPrefix (.ref other .chain) =
            some (.chain (compactedManifest chain built.1)) := by
        rw [ChainShape.slot?_compacted (by simp), if_neg (by simp),
          if_pos rfl]
      have before : tips bucketPrefix world other = some chain.tip := by
        rw [tips, loadedChain_eq_ok _ _ _ loaded, Option.map_some]
      exact (tips_of_stored stored rfl).trans before.symm
    · apply tips_congr
      rw [ChainShape.slot?_compacted (by simp), if_neg (by simp [own]),
        if_neg (by simp [own])]
  · rw [ran]

/-! ## Pushes -/

/-- What a prepared task carries into its section. -/
def Carried (ahead : Sha → Sha → Prop) : Task → Prop
  | .push _ ready =>
      ready.force = false →
        ∀ prior, ready.prior = some prior →
          ahead prior.tip ready.localSha ∧ prior.tip ≠ ready.localSha
  | _ => True

theorem sets_committed
    (ready : ReadyState)
    (pathIndex : Option PathIndex)
    (world : World) :
    Sets ready.remoteRef ready.localSha (tips bucketPrefix world)
      (tips bucketPrefix
        (committed bucketPrefix ready pathIndex world)) where
  set := by
    rw [tips, chain?_committed, Option.map_some]
    exact congrArg some (nextManifest_tip _ _ _ _)
  others := by
    intro other notOwn
    apply tips_congr
    rw [ChainShape.slot?_committed, if_neg (by simp),
      if_neg (by simp [notOwn])]

/-- A push compares the tip it has seen, and sets the new one. -/
theorem turns_push
    {repo : LocalRepo}
    {ready : ReadyState}
    (carried : Carried ahead (.push repo ready))
    (refName : RefName)
    (world : World) :
    (sectionTold bucketPrefix refName world (.push repo ready)).Turns
      ahead (tips bucketPrefix world)
      (tips bucketPrefix
        (run answer (performPushUnderLock bucketPrefix repo ready)
          world).2) := by
  change
    (pushTold ready
      (run answer (performPushUnderLock bucketPrefix repo ready)
        world).1).Turns _ _ _
  rcases run_performPushUnderLock repo ready world with
    ⟨pathIndex, accepts, ran⟩ | ⟨-, outcome, unsaid, ran⟩
  · rw [ran]
    have sets :=
      @sets_committed _ bucketPrefix ready pathIndex world
    cases forced : ready.force with
    | true =>
        simp only [pushTold, forced, if_true]
        exact sets
    | false =>
        simp only [pushTold, forced, Bool.false_eq_true, if_false]
        rcases accepts with ⟨current, loaded, -, same, -⟩
        refine ⟨?_, ?_, sets⟩
        · rw [tips, loadedChain_eq_ok _ _ _ loaded, same forced]
        · intro old seen
          rcases Option.map_eq_some_iff.1 seen with ⟨prior, known, rfl⟩
          exact (carried forced prior known).1
  · rw [ran]
    cases outcome with
    | error error => rfl
    | ok pushed =>
        cases pushed with
        | ok remoteRef => exact absurd rfl (unsaid remoteRef)
        | error remoteRef message => rfl

/-- Every section turns the registers as it tells. -/
theorem turns_section
    {task : Task}
    (carried : Carried ahead task)
    (refName : RefName)
    (world : World) :
    (sectionTold bucketPrefix refName world task).Turns ahead
      (tips bucketPrefix world)
      (tips bucketPrefix
        (run answer (work bucketPrefix refName task) world).2) := by
  cases task with
  | push repo ready =>
      simp only [work, run_toEffect]
      exact turns_push carried refName world
  | delete =>
      simp only [work, run_toEffect]
      exact turns_delete refName world
  | compact scratch =>
      simp only [work, run_toEffect]
      exact turns_compact scratch refName world
  | deleteBranch =>
      simp only [work, run_toEffect]
      exact turns_deleteBranch refName world

/-! ## Clients of a repository -/

section Clients

variable {ι : Type}

/-- The contract of a preparation: others do anything, it moves no tip. -/
def still (bucketPrefix : Option Text) : Contract Call World where
  rely := fun _ _ => True
  invariant := fun _ => True
  met := fun _ _ => True
  guarantee := fun state later =>
    tips bucketPrefix later = tips bucketPrefix state
  rely_refl := fun _ => trivial
  rely_trans := fun _ _ _ _ _ => trivial

/-- What the upload of a preparation writes is aside from the chains. -/
theorem safe_upload
    (refName : RefName)
    (localSha : Sha)
    (built : BuiltPack × Option (List UInt8))
    (world : World) :
    Safe (still bucketPrefix) answer (whenOk fun _ _ => True)
      (uploadPackIdxBaseline bucketPrefix refName localSha built.1
        built.2)
      world := by
  have issues :
      Issues Call.Credible (ChainShape.Apart bucketPrefix)
        (uploadPackIdxBaseline bucketPrefix refName localSha built.1
          built.2) := by
    apply issues_uploadPackIdxBaseline
    intro slot content upload
    apply ChainShape.apart_put
    · rintro other rfl
      exact upload
    · rintro other rfl
      exact upload
  have safe :
      Safe (still bucketPrefix) answer (fun _ _ => True)
        (uploadPackIdxBaseline bucketPrefix refName localSha built.1
          built.2)
        world := by
    apply
      issues.safe credible_answer _ (fun _ _ _ _ => trivial) trivial
    exact fun request state apart _ _ _ =>
      ⟨⟨trivial, tips_of_apart apart state⟩, trivial⟩
  apply safe.weaken
  intro outcome _ _ _
  cases outcome with
  | ok value => trivial
  | error error => trivial

/-- An unforced push was checked against the tip it has seen. -/
theorem safe_prepare
    (refName : RefName)
    (operation : Operation)
    (truthful : Truthful ahead operation)
    (world : World) :
    Safe (still bucketPrefix) answer
      (whenOk fun prepared _ =>
        ∀ task, prepared = some task → Carried ahead task)
      (prepare bucketPrefix refName operation) world := by
  have readable : PermitsReads (still bucketPrefix) :=
    fun request state reads _ =>
      ⟨trivial, tips_of_apart (ChainShape.apart_reads request reads) state⟩
  apply
    @keeping_prepare _ _ _ _ (fun _ task _ => Carried ahead task) readable
      (fun _ _ _ _ _ carried => carried)
  case push =>
      rintro repo force localSpec rfl -
      have prepared :=
        @keeping_preparePush _ (still bucketPrefix) bucketPrefix world
          repo ⟨force, localSpec, refName⟩ (fun _ _ => True)
          (fun _ _ _ => True) (fun _ => rfl) (fun _ _ _ => trivial)
          (fun _ _ _ _ => trivial) (fun _ _ _ _ _ => trivial)
          (fun _ _ _ _ _ _ => trivial)
          (fun _ found built state _ _ =>
            safe_upload refName found.localSha built state)
      apply prepared.weaken
      intro outcome _ _ carries
      cases outcome with
      | error error => trivial
      | ok outcome =>
          intro ready same
          rcases (carries ready same).2.2 with ⟨found, built, source, -⟩
          intro unforced prior known
          have git := source.git
          rw [known] at git
          constructor
          · apply truthful repo force localSpec rfl
            rw [source.localSha]
            rw [unforced] at git
            exact git.descends
          · intro unmoved
            apply source.ahead
            refine ⟨unforced, ?_⟩
            rw [known, ← source.localSha, ← unmoved]
            rfl
  case delete => exact fun _ _ _ _ => trivial
  case compact => exact fun _ _ _ _ => trivial
  case deleteBranch => exact fun _ _ _ => trivial

/-- Preparations keep to their contract. -/
theorem prepares_still (ι : Type) :
    (repository (Truthful ahead) bucketPrefix ι).Prepares
      (still bucketPrefix) (fun _ found _ => Carried ahead found.2) where
  fair := fun _ _ _ => trivial
  met := fun _ _ => trivial
  stable := fun _ _ _ _ _ carried => carried
  begin := fun _ _ _ => ⟨trivial, trivial⟩
  elapse := fun _ _ _ => ⟨trivial, trivial⟩
  prepare := by
    intro client command world
    apply
      (safe_prepare command.refName command.operation command.allowed
        world).andThen
    intro prepared _ _ carried _ _ _ found same
    rcases Option.map_eq_some_iff.1 same with ⟨task, rfl, rfl⟩
    exact carried task rfl

variable [DecidableEq ι]

/-- What a step tells: what the locked section it may consist of does. -/
def told
    (bucketPrefix : Option Text)
    (pool :
      Pool ι (Command (Truthful ahead)) Call Reply Unit (RefName × Task)
        World) :
    Action ι (Command (Truthful ahead)) → Event RefName Sha
  | .atomic client =>
      match (pool.phase client).waiting? with
      | some (_, found) =>
          sectionTold bucketPrefix found.1 pool.state found.2
      | none => .quiet
  | _ => .quiet

/-- What clients do in whole sections. -/
abbrev Whole
    (_pool :
      Pool ι (Command (Truthful ahead)) Call Reply Unit (RefName × Task)
        World)
    (action : Action ι (Command (Truthful ahead))) : Prop :=
  action.Whole

variable
    {pool next later :
      Pool ι (Command (Truthful ahead)) Call Reply Unit (RefName × Task)
        World}

/-- Every client carries what its preparation has checked. -/
theorem kept_of_reached
    {start : World}
    (reached :
      (repository (Truthful ahead) bucketPrefix ι).Reaches Whole
        (.quiet start) pool) :
    pool.Kept (repository (Truthful ahead) bucketPrefix ι)
      (still bucketPrefix) (fun _ found _ => Carried ahead found.2) :=
  reached.keptWhile (prepares_still ι) (fun _ _ whole => whole)
    (fun _ _ _ _ _ _ _ _ => ⟨trivial, trivial⟩) trivial

/-- Every step turns the registers as it tells. -/
theorem turns_of_step
    {start : World}
    {action : Action ι (Command (Truthful ahead))}
    (reached :
      (repository (Truthful ahead) bucketPrefix ι).Reaches Whole
        (.quiet start) pool)
    (whole : action.Whole)
    (stepped :
      (repository (Truthful ahead) bucketPrefix ι).Step pool action
        next) :
    (told bucketPrefix pool action).Turns ahead
      (tips bucketPrefix pool.state) (tips bucketPrefix next.state) := by
  have kept := kept_of_reached reached
  cases stepped with
  | @prepareCall client command request rest preparing =>
      have own := kept.clients client
      rw [preparing] at own
      exact (own pool.state trivial trivial trivial).1.2
  | @workCall client command request rest holding =>
      have own := kept.clients client
      rw [holding] at own
      exact own.elim
  | lock waiting free => exact whole.elim
  | @atomic client command found waiting free =>
      have own := kept.clients client
      rw [waiting] at own
      have same :
          told bucketPrefix pool (.atomic client) =
            sectionTold bucketPrefix found.1 pool.state found.2 := by
        simp only [told, waiting, Phase.waiting?]
      rw [same]
      exact turns_section own found.1 pool.state
  | _ => rfl

/--
The references behave as registers that turn as the clients are told, however
the steps of the clients interleave.
-/
theorem refines_registers
    {start : World}
    {events : List (Event RefName Sha)}
    (tells :
      (repository (Truthful ahead) bucketPrefix ι).Tells Whole
        (told bucketPrefix) (.quiet start) events pool) :
    History ahead (tips bucketPrefix start) events
      (tips bucketPrefix pool.state) :=
  tells.turned
    (fun _ _ _ reached whole stepped =>
      turns_of_step reached whole stepped)
    .refl

/-- A section that advances a register has not seen it there already. -/
theorem moved_of_sectionTold
    {task : Task}
    (carried : Carried ahead task)
    {other refName : RefName}
    {world : World}
    {seen : Option Sha}
    {sha : Sha}
    (same :
      sectionTold bucketPrefix other world task =
        .advance refName seen sha) :
    seen ≠ some sha := by
  cases task with
  | push repo ready =>
      change pushTold ready _ = _ at same
      generalize
        (run answer (performPushUnderLock bucketPrefix repo ready)
          world).1 = outcome at same
      rcases outcome with error | ⟨remoteRef | ⟨remoteRef, message⟩⟩
      · cases same
      · cases forced : ready.force with
        | true =>
            simp only [pushTold, forced, if_true] at same
            cases same
        | false =>
            simp only [pushTold, forced, Bool.false_eq_true, if_false]
              at same
            cases same
            intro unmoved
            rcases Option.map_eq_some_iff.1 unmoved with
              ⟨prior, known, equal⟩
            exact (carried forced prior known).2 equal
      · cases same
  | delete =>
      change deleteTold _ = _ at same
      generalize
        (run answer (deleteUnderLock bucketPrefix other) world).1 = outcome
          at same
      rcases outcome with error | ⟨remoteRef | ⟨remoteRef, message⟩⟩ <;>
        cases same
  | compact scratch => cases same
  | deleteBranch =>
      change deleteBranchTold other _ = _ at same
      generalize
        (run answer (deleteBranchUnderLock bucketPrefix other) world).1 =
          outcome at same
      rcases outcome with error | (_ | _ | _) <;> cases same

theorem moved_of_told
    {start : World}
    (reached :
      (repository (Truthful ahead) bucketPrefix ι).Reaches Whole
        (.quiet start) pool)
    {action : Action ι (Command (Truthful ahead))}
    {refName : RefName}
    {seen : Option Sha}
    {sha : Sha}
    (same : told bucketPrefix pool action = .advance refName seen sha) :
    seen ≠ some sha := by
  have kept := kept_of_reached reached
  cases action with
  | atomic client =>
      have own := kept.clients client
      simp only [told] at same
      cases phase : pool.phase client with
      | waiting command found =>
          rw [phase] at own same
          exact moved_of_sectionTold own same
      | _ =>
          rw [phase] at same
          cases same
  | _ => cases same

/--
Of two unforced pushes that have seen a reference at the same tip, or absent,
only the first can succeed, unless the reference is forced or deleted in
between.
-/
theorem race_won_once
    [IsPreorder Sha ahead]
    [Std.Antisymm ahead]
    {start : World}
    {first second : Action ι (Command (Truthful ahead))}
    {events : List (Event RefName Sha)}
    {refName : RefName}
    {seen : Option Sha}
    {sha other : Sha}
    (reached :
      (repository (Truthful ahead) bucketPrefix ι).Reaches Whole
        (.quiet start) pool)
    (whole : first.Whole)
    (stepped :
      (repository (Truthful ahead) bucketPrefix ι).Step pool first next)
    (pushed : told bucketPrefix pool first = .advance refName seen sha)
    (tells :
      (repository (Truthful ahead) bucketPrefix ι).Tells Whole
        (told bucketPrefix) next events later)
    (spared : ∀ event ∈ events, ¬ event.Loses refName)
    {last :
      Pool ι (Command (Truthful ahead)) Call Reply Unit (RefName × Task)
        World}
    (wholeAgain : second.Whole)
    (steppedAgain :
      (repository (Truthful ahead) bucketPrefix ι).Step later second
        last) :
    told bucketPrefix later second ≠ .advance refName seen other := by
  intro again
  have turned {pool next action} :=
    @turns_of_step _ bucketPrefix ahead ι _ pool next start action
  have reachedNext := reached.step whole stepped
  have history :
      History ahead (tips bucketPrefix next.state) events
        (tips bucketPrefix later.state) :=
    tells.turned (fun _ _ _ => turned) reachedNext
  have advanced := turned reached whole stepped
  rw [pushed] at advanced
  have advancedAgain :=
    turned (tells.reaches reachedNext) wholeAgain steppedAgain
  rw [again] at advancedAgain
  exact
    moved_of_told reached pushed
      (raced_of_history advanced history spared advancedAgain)

end Clients

end Refinement

/-! ## Schedules -/

section Schedules

attribute [local instance] Platform.simple

/-- Commits ordered by their texts, as the linear history has them. -/
def byText (old new : Sha) : Prop :=
  old.text ≤ new.text

instance : IsPreorder Sha byText where
  refl := fun sha => le_refl sha.text
  trans := fun _ _ _ => le_trans

instance : Std.Antisymm byText where
  antisymm := fun _ _ left right => Sha40.ext (le_antisymm left right)

/-- A push of one commit of the linear history. -/
def pushOf (force : Bool) (localSpec : Text) :
    Command (Truthful byText) where
  refName := .main
  operation := .push .linear force localSpec
  allowed := by
    intro repo force localSpec same old new descends
    cases same
    exact ProtectedHistories.le_of_descends_linear descends

/-- The clients of a repository at the root of its bucket. -/
abbrev smallRepository :
    System Nat (Command (Truthful byText)) Call Reply Unit
      (RefName × Task) World :=
  repository (Truthful byText) none Nat

/-- A first push, prepared. -/
def firstPrepared : List (Action Nat (Command (Truthful byText))) :=
  .start 0 (pushOf false ['a']) :: Action.calls 0 4 ++ [.settle 0]

/-- Two more pushes, both prepared on top of it. -/
def bothPrepared : List (Action Nat (Command (Truthful byText))) :=
  .start 0 (pushOf false ['b']) :: Action.calls 0 3 ++
    .settle 0 ::
    .start 1 (pushOf false ['c']) :: Action.calls 1 3 ++ [.settle 1]

/-- What an advance has seen and sets. -/
def advanceOf : Event RefName Sha → Option (RefName × Option Sha × Sha)
  | .advance refName seen value => some (refName, seen, value)
  | _ => none

theorem eq_of_advanceOf
    {event : Event RefName Sha}
    {refName : RefName}
    {seen : Option Sha}
    {value : Sha}
    (same : advanceOf event = some (refName, seen, value)) :
    event = .advance refName seen value := by
  cases event with
  | advance other before written =>
      cases same
      rfl
  | _ => cases same

theorem refines_registers_raced :
    ∃ events pool,
      smallRepository.tale? Whole (told none)
          (firstPrepared ++ .atomic 0 :: bothPrepared ++
            [.atomic 0, .atomic 1])
          (.quiet (.empty 0)) = some (events, pool) ∧
        events.filterMap advanceOf =
          [(.main, none, digitSha 'a' hex_a),
            (.main, some (digitSha 'a' hex_a), digitSha 'b' hex_b)] ∧
        History byText (tips none (.empty 0)) events
          (tips none pool.state) := by
  have executed :
      (smallRepository.tale? Whole (told none)
          (firstPrepared ++ .atomic 0 :: bothPrepared ++
            [.atomic 0, .atomic 1])
          (.quiet (.empty 0))).map
        (fun ended => ended.1.filterMap advanceOf) =
        some
          [(.main, none, digitSha 'a' hex_a),
            (.main, some (digitSha 'a' hex_a), digitSha 'b' hex_b)] := by
    decide +kernel
  rcases Option.map_eq_some_iff.1 executed with
    ⟨⟨events, pool⟩, ran, advances⟩
  exact
    ⟨events, pool, ran, advances,
      refines_registers (System.Tells.nil.tale ran)⟩

theorem whole_atomic (client : Nat) :
    (Action.atomic client :
      Action Nat (Command (Truthful byText))).Whole :=
  trivial

/-- Both pushes are prepared on top of the first. -/
def raceStarts : List (Action Nat (Command (Truthful byText))) :=
  firstPrepared ++ .atomic 0 :: bothPrepared

theorem race_won_once_raced :
    ∃ pool next,
      smallRepository.schedule? Whole raceStarts
          (.quiet (.empty 0)) = some pool ∧
        smallRepository.step? pool (.atomic 0) = some next ∧
        told none pool (.atomic 0) =
          .advance .main (some (digitSha 'a' hex_a))
            (digitSha 'b' hex_b) ∧
        (smallRepository.step? next (.atomic 1)).isSome ∧
        told none next (.atomic 1) ≠
          .advance .main (some (digitSha 'a' hex_a))
            (digitSha 'c' hex_c) := by
  have executed :
      (smallRepository.schedule? Whole raceStarts
          (.quiet (.empty 0))).bind
        (fun pool =>
          (smallRepository.step? pool (.atomic 0)).map fun next =>
            (advanceOf (told none pool (.atomic 0)),
              (smallRepository.step? next (.atomic 1)).isSome)) =
        some
          (some
            (.main, some (digitSha 'a' hex_a), digitSha 'b' hex_b),
            true) := by
    decide +kernel
  rcases Option.bind_eq_some_iff.1 executed with ⟨pool, ran, rest⟩
  rcases Option.map_eq_some_iff.1 rest with ⟨next, stepped, known⟩
  simp only [Prod.mk.injEq] at known
  have pushed := eq_of_advanceOf known.1
  rcases Option.isSome_iff_exists.1 known.2 with ⟨last, again⟩
  exact
    ⟨pool, next, ran, stepped, pushed, known.2,
      race_won_once (System.Reaches.refl.schedule ran) (whole_atomic 0)
        (System.step_of_step? stepped) pushed .nil
        (by
          intro action member
          cases member)
        (whole_atomic 1)
        (System.step_of_step? again)⟩

end Schedules

end GitRemoteObjectStore.RefRegisters
