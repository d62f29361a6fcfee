import GitRemoteObjectStore.Clones
import GitRemoteObjectStore.PushRetries

/-!
# Compactions that are cut off

A compaction may lose calls or replies, and may stop anywhere.  It writes the
new pack and the new baseline before the chain that names them, and deletes
nothing that a chain may name.  So whatever could be cloned before can be
cloned afterwards, with the same tip.
-/

namespace GitRemoteObjectStore.CompactionCuts

open CallProgram Prog Packchain Closure Arrivals
open GitRemoteObjectStore.ChainClosure
open Provenance Clones
open FetchClosure (Holding)
open Ownership (credible_faulty bucket_faulty)

section Calls

variable
    [Platform]
    {bucketPrefix : Option Text}
    {refName : RefName}

/-! ## Calls that take nothing away -/

/-- A call that deletes only locks and path indexes. -/
def Adds
    (bucketPrefix : Option Text)
    (refName : RefName) : Call → Prop
  | .delete key =>
      key = (Slot.ref refName .lock).key bucketPrefix ∨
        key = (Slot.ref refName .pathIndex).key bucketPrefix
  | .put key _ =>
      ∀ other, key = (Slot.ref other .chain).key bucketPrefix →
        other = refName
  | .putIfAbsent key _ =>
      ∀ other, key ≠ (Slot.ref other .chain).key bucketPrefix
  | _ => True

theorem permits_adds :
    Permits bucketPrefix refName .packchain
      (Adds bucketPrefix refName) where
  reads := by
    intro request reads
    cases request with
    | put key body => exact reads.elim
    | putIfAbsent key body => exact reads.elim
    | delete key => exact reads.elim
    | _ => trivial
  lock := by
    intro other same
    cases (Slot.key_inj _).1 same
  unlock := Or.inl rfl
  put := by
    intro slot body written other same
    obtain rfl := (Slot.key_inj _).1 same
    exact written.2
  drop := fun _ => Or.inr rfl
  head := by
    intro other same
    cases (Slot.key_inj _).1 same
  format := by
    intro other same
    cases (Slot.key_inj _).1 same

/-- What a chain may name: a pack, or a bundle. -/
def Lasting : Slot → Prop
  | .pack _ => True
  | .ref _ (.bundle _) => True
  | _ => False

/-- What lasts of a bucket, and the chains of the other references. -/
structure Keeps
    (bucketPrefix : Option Text)
    (refName : RefName)
    (start world : World) : Prop where
  lasting :
    ∀ slot : Slot, Lasting slot →
      (start.get? (slot.key bucketPrefix)).isSome →
        (world.get? (slot.key bucketPrefix)).isSome
  others :
    ∀ other, other ≠ refName →
      world.body? (chainKey bucketPrefix other) =
        start.body? (chainKey bucketPrefix other)

theorem Keeps.refl (world : World) :
    Keeps bucketPrefix refName world world :=
  ⟨fun _ _ there => there, fun _ _ => rfl⟩

theorem Adds.not_delete
    {request : Call}
    (adds : Adds bucketPrefix refName request)
    {slot : Slot}
    (lasting : Lasting slot) :
    request ≠ .delete (slot.key bucketPrefix) := by
  rintro rfl
  rcases adds with same | same <;>
    · obtain rfl := (Slot.key_inj _).1 same
      exact lasting

theorem Adds.not_writes
    {request : Call}
    (adds : Adds bucketPrefix refName request)
    {other : RefName}
    (different : other ≠ refName) :
    ¬ request.Writes ((Slot.ref other .chain).key bucketPrefix) := by
  intro writes
  cases request with
  | put key body => exact different (adds other writes.symm)
  | putIfAbsent key body => exact adds other writes.symm
  | delete key =>
      rcases adds with same | same <;>
        · rw [same] at writes
          cases (Slot.key_inj _).1 writes
  | _ => exact writes

theorem Keeps.call
    {start world : World}
    (keeps : Keeps bucketPrefix refName start world)
    {request : Call}
    (adds : Adds bucketPrefix refName request) :
    Keeps bucketPrefix refName start (answer request world).2 where
  lasting := by
    intro slot lasting there
    exact
      present_answer (adds.not_delete lasting)
        (keeps.lasting slot lasting there)
  others := by
    intro other different
    have same := adds.not_writes different
    rw [← chainKey_eq] at same
    rw [body?_answer_of_not_writes same]
    exact keeps.others other different

theorem Keeps.faulty
    {start : World}
    {state : World × Nat}
    (keeps : Keeps bucketPrefix refName start state.1)
    (plan : FaultPlan Call ObjectStoreError)
    {request : Call}
    (adds : Adds bucketPrefix refName request) :
    Keeps bucketPrefix refName start
      (faulty answer failed plan request state).2.1 := by
  rcases bucket_faulty plan request state with same | same
  · rw [same]
    exact keeps
  · rw [same]
    exact keeps.call adds

/-- What is present stays present. -/
theorem Present.kept
    {other : RefName}
    {chain : ChainManifest}
    (canonical :
      ∀ segment ∈ chain.segments,
        ∃ name, segment.pack = packKey none name)
    {start world : World}
    (present : Present bucketPrefix other chain start)
    (keeps : Keeps bucketPrefix refName start world) :
    Present bucketPrefix other chain world where
  bundle := by
    have bundle := present.bundle
    rw [bundleKey_eq] at bundle ⊢
    exact keeps.lasting _ trivial bundle
  packs := by
    intro segment member
    have pack := present.packs segment member
    rcases canonical segment member with ⟨name, same⟩
    rw [same, packKeyFromRelative_packKey, packKey_eq] at pack ⊢
    exact keeps.lasting _ trivial pack

end Calls

/-! ## The chain of the reference -/

section Chains

variable
    [Platform]
    {bucketPrefix : Option Text}
    {refName : RefName}
    {start : Option Body}
    {plan : FaultPlan Call ObjectStoreError}

/-- The chain is as it was, or compacted, and then everything is there. -/
inductive Standing
    (bucketPrefix : Option Text)
    (refName : RefName)
    (start : Option Body)
    (world : World) : Prop where
  | before
      (same : world.body? (chainKey bucketPrefix refName) = start)
  | compacted {prior manifest : ChainManifest}
      (was : start = some (.chain prior))
      (now :
        world.body? (chainKey bucketPrefix refName) =
          some (.chain manifest))
      (version : manifest.v = ChainManifest.schemaVersion)
      (tip : manifest.tip = prior.tip)
      (canonical :
        ∀ segment ∈ manifest.segments,
          ∃ name, segment.pack = packKey none name)
      (distinct : (manifest.segments.map ChainSegment.sha).Nodup)
      (present : Present bucketPrefix refName manifest world)

/-- The terms of a compaction that nobody interferes with. -/
abbrev standing
    (bucketPrefix : Option Text)
    (refName : RefName)
    (start : Option Body) : Contract Call (World × Nat) :=
  .alone fun state => Standing bucketPrefix refName start state.1

/-- A call that takes nothing away and writes no chain. -/
def Quiet
    (bucketPrefix : Option Text)
    (refName : RefName)
    (request : Call) : Prop :=
  Adds bucketPrefix refName request ∧
    ¬ request.Writes ((Slot.ref refName .chain).key bucketPrefix)

/-- Nothing that lasts is gone, and no chain has changed. -/
structure Still
    (bucketPrefix : Option Text)
    (refName : RefName)
    (before world : World) : Prop extends
    Keeps bucketPrefix refName before world where
  own :
    world.body? (chainKey bucketPrefix refName) =
      before.body? (chainKey bucketPrefix refName)

theorem Still.refl (world : World) :
    Still bucketPrefix refName world world :=
  ⟨.refl world, rfl⟩

theorem Still.trans
    {first second third : World}
    (early : Still bucketPrefix refName first second)
    (late : Still bucketPrefix refName second third) :
    Still bucketPrefix refName first third where
  lasting := fun slot lasting there =>
    late.lasting slot lasting (early.lasting slot lasting there)
  others := fun other different =>
    (late.others other different).trans (early.others other different)
  own := late.own.trans early.own

theorem Still.call
    {before world : World}
    (still : Still bucketPrefix refName before world)
    {request : Call}
    (quiet : Quiet bucketPrefix refName request) :
    Still bucketPrefix refName before (answer request world).2 where
  toKeeps := still.toKeeps.call quiet.1
  own := by
    have silent := quiet.2
    rw [← chainKey_eq] at silent
    rw [body?_answer_of_not_writes silent]
    exact still.own

theorem Still.faulty
    {before : World}
    {state : World × Nat}
    (still : Still bucketPrefix refName before state.1)
    (plan : FaultPlan Call ObjectStoreError)
    {request : Call}
    (quiet : Quiet bucketPrefix refName request) :
    Still bucketPrefix refName before
      (faulty answer failed plan request state).2.1 := by
  rcases bucket_faulty plan request state with same | same
  · rw [same]
    exact still
  · rw [same]
    exact still.call quiet

theorem Standing.later
    {before world : World}
    (standing : Standing bucketPrefix refName start before)
    (still : Still bucketPrefix refName before world) :
    Standing bucketPrefix refName start world := by
  cases standing with
  | before same => exact .before (still.own.trans same)
  | compacted was now version tip canonical distinct present =>
      exact
        .compacted was (still.own.trans now) version tip canonical distinct
          (Present.kept canonical present still.toKeeps)

theorem quiet_reads
    (request : Call)
    (reads : request.Reads) :
    Quiet bucketPrefix refName request :=
  ⟨permits_adds.reads request reads,
    (PushRetries.silent_reads request reads).1⟩

theorem locks_quiet :
    Locks bucketPrefix refName (Quiet bucketPrefix refName) where
  reads := quiet_reads
  lock := ⟨permits_adds.lock, PushRetries.locks_silent.lock.1⟩
  unlock := ⟨permits_adds.unlock, PushRetries.locks_silent.unlock.1⟩

theorem quiet_put
    {slot : Slot}
    (written : slot.WrittenBy .packchain refName)
    (other : slot ≠ .ref refName .chain)
    (body : Body) :
    Quiet bucketPrefix refName (.put (slot.key bucketPrefix) body) :=
  ⟨permits_adds.put slot body written, fun same =>
    other ((Slot.key_inj _).1 same).symm⟩

/-- Quiet calls leave what lasts and every chain. -/
theorem safe_quiet
    {ε α : Type}
    {program : Program ε α}
    (issues :
      Issues Call.Credible (Quiet bucketPrefix refName) program)
    (state : World × Nat) :
    Safe (standing bucketPrefix refName start)
      (faulty answer failed plan)
      (fun _ later => Still bucketPrefix refName state.1 later.1)
      program state := by
  refine issues.safe credible_faulty ?_ ?_ (.refl state.1)
  · intro request before quiet stands _ still
    refine ⟨⟨?_, trivial⟩, still.faulty plan quiet⟩
    exact
      Standing.later stands
        ((Still.refl before.1).faulty plan quiet)
  · rintro before later rfl still
    exact still

/-- A file that is written is there, and nothing else has gone. -/
theorem safe_putPath
    {slot : Slot}
    (written : slot.WrittenBy .packchain refName)
    (other : slot ≠ .ref refName .chain)
    (content : List UInt8)
    (state : World × Nat) :
    Safe (standing bucketPrefix refName start)
      (faulty answer failed plan)
      (whenOk fun _ later =>
        Still bucketPrefix refName state.1 later.1 ∧
          (later.1.get? (slot.key bucketPrefix)).isSome)
      (Store.putPath (slot.key bucketPrefix) content) state := by
  rcases state with ⟨world, count⟩
  have quiet :
      Quiet bucketPrefix refName
        (.put (slot.key bucketPrefix) (.file content)) :=
    quiet_put written other _
  have still :
      Still bucketPrefix refName world
        (world.put (slot.key bucketPrefix) (.file content)) :=
    (Still.refl world).call quiet
  unfold Store.putPath
  apply safe_faulty
  · intro stands
    refine ⟨Standing.later stands still, ?_⟩
    rintro _ rfl -
    refine ⟨still, ?_⟩
    simp only [answer]
    rw [World.get?_put, if_pos rfl]
    rfl
  · intro fault reply later _ broke _ _ _
    cases broke
    exact fun _ _ _ => trivial

/-- A chain that is loaded is the one that is stored. -/
theorem safe_loadChain (state : World × Nat) :
    Safe (standing bucketPrefix refName start)
      (faulty answer failed plan)
      (whenOk fun found later =>
        later.1 = state.1 ∧
          ∀ chain, found = some chain →
            state.1.chain? bucketPrefix refName = some chain)
      (loadChain bucketPrefix refName) state := by
  rcases state with ⟨world, count⟩
  unfold loadChain Store.getBytes
  apply safe_faulty
  · intro stands
    cases found : world.get? (chainKey bucketPrefix refName) with
    | none =>
        simp only [answer, found]
        refine ⟨stands, ?_⟩
        rintro _ rfl -
        refine ⟨rfl, ?_⟩
        intro chain same
        cases same
    | some object =>
        simp only [answer, found]
        refine ⟨stands, ?_⟩
        cases parsed : ChainManifest.fromJsonBytes object.body with
        | error error =>
            simp only [Prog.ofExcept, Prog.attempt, Prog.bind, parsed]
            exact safe_fail
        | ok manifest =>
            simp only [Prog.ofExcept, Prog.attempt, Prog.bind, parsed]
            rintro _ rfl -
            refine ⟨rfl, ?_⟩
            intro chain same
            cases same
            unfold World.chain? World.body?
            rw [found]
            simp only [Option.map_some, parsed]
            rfl
  · intro fault reply later _ broke effect _ _
    have same : later = world := by
      rcases effect with same | same
      · exact same
      · rw [same]
        simp only [answer]
        split <;> rfl
    subst same
    cases broke
    cases fault.error with
    | notFound key =>
        rintro _ rfl -
        refine ⟨rfl, ?_⟩
        intro chain impossible
        cases impossible
    | _ => exact safe_fail

/-- The chain is written once what it names is there. -/
theorem safe_writeChain
    {prior manifest : ChainManifest}
    (was : start = some (.chain prior))
    (version : manifest.v = ChainManifest.schemaVersion)
    (tip : manifest.tip = prior.tip)
    (canonical :
      ∀ segment ∈ manifest.segments,
        ∃ name, segment.pack = packKey none name)
    (distinct : (manifest.segments.map ChainSegment.sha).Nodup)
    {state : World × Nat}
    (present : Present bucketPrefix refName manifest state.1) :
    Safe (standing bucketPrefix refName start)
      (faulty answer failed plan) (whenOk fun _ _ => True)
      (writeChain bucketPrefix refName manifest) state := by
  rcases state with ⟨world, count⟩
  have adds :
      Adds bucketPrefix refName
        (.put (chainKey bucketPrefix refName) (.chain manifest)) := by
    rw [chainKey_eq]
    exact permits_adds.put (.ref refName .chain) _ ⟨rfl, rfl⟩
  unfold writeChain Store.putBytes
  apply Safe.convert
  apply safe_faulty
  · intro _
    refine ⟨?_, fun _ _ _ => trivial⟩
    have kept :=
      Present.kept canonical present ((Keeps.refl world).call adds)
    apply Standing.compacted was _ version tip canonical distinct kept
    simp only [answer]
    rw [World.body?_put, if_pos rfl]
  · intro fault reply later _ broke _ _ _
    cases broke
    exact fun _ _ _ => trivial

/-- A compaction writes what its chain names, and then the chain. -/
theorem safe_commitCompaction
    {chain : ChainManifest}
    (was : start = some (.chain chain))
    (built : BuiltPack × Option PathIndex × List UInt8)
    (state : World × Nat) :
    Safe (standing bucketPrefix refName start)
      (faulty answer failed plan) (whenOk fun _ _ => True)
      (commitCompaction bucketPrefix refName chain built) state := by
  unfold commitCompaction
  simp only [packKey_eq, packIdxKey_eq, bundleKey_eq]
  have packs :
      (Slot.pack built.1.contentSha).WrittenBy .packchain refName :=
    rfl
  have indexes :
      (Slot.idx built.1.contentSha).WrittenBy .packchain refName :=
    rfl
  have bundles :
      (Slot.ref refName (.bundle chain.tip)).WrittenBy .packchain
        refName :=
    rfl
  apply (safe_putPath packs (by simp) _ state).convert.andThen
  rintro _ packed - ⟨-, pack⟩
  apply (safe_putPath indexes (by simp) _ packed).convert.andThen
  rintro _ indexed - ⟨sameIndexed, -⟩
  apply (safe_putPath bundles (by simp) _ indexed).convert.andThen
  rintro _ based - ⟨sameBased, bundle⟩
  have present :
      Present bucketPrefix refName (compactedManifest chain built.1)
        based.1 := by
    constructor
    · rw [bundleKey_eq]
      exact bundle
    · intro segment member
      rw [List.mem_singleton.1 member]
      dsimp only
      rw [packKeyFromRelative_packKey, packKey_eq]
      have lasting : Lasting (.pack built.1.contentSha) := trivial
      exact
        sameBased.lasting _ lasting (sameIndexed.lasting _ lasting pack)
  have canonical :
      ∀ segment ∈ (compactedManifest chain built.1).segments,
        ∃ name, segment.pack = packKey none name := by
    intro segment member
    rw [List.mem_singleton.1 member]
    exact ⟨_, rfl⟩
  have written :=
    @safe_writeChain _ bucketPrefix refName start plan chain
      (compactedManifest chain built.1) was rfl rfl canonical
      (List.nodup_singleton _) based present
  apply written.andThen
  intro _ chained _ _
  have indexing :
      Issues Call.Credible (Quiet bucketPrefix refName)
        (writePathIndexIfAny bucketPrefix refName built.2.1) := by
    unfold writePathIndexIfAny writePathIndex
    rw [pathIndexKey_eq]
    cases built.2.1 with
    | none => trivial
    | some index =>
        apply Issues.mapError
        have writes :
            (Slot.ref refName .pathIndex).WrittenBy .packchain refName :=
          ⟨rfl, rfl⟩
        apply issues_request (quiet_put writes (by simp) _)
        simp
  apply (safe_quiet indexing chained).keeping
  intro _ later _ _
  have tombstones (runId : Component) (record : BaselineTombstone) :
      Quiet bucketPrefix refName
        (.put (baselineTombstoneKey (prefixText bucketPrefix) runId)
          (.baselineTombstone record)) := by
    rw [baselineTombstoneKey_eq]
    have writes :
        (Slot.baselineTombstone runId).WrittenBy .packchain refName :=
      trivial
    exact quiet_put writes (by simp) _
  apply
    (safe_quiet
      (issues_writeBaselineTombstoneBestEffort quiet_reads _ _ _ _
        tombstones)
      later).keeping
  intro _ _ _ _
  exact safe_end

/-- The locked section of a compaction. -/
theorem safe_compactUnderLock
    (scratch : Scratch)
    {state : World × Nat}
    (before :
      state.1.body? (chainKey bucketPrefix refName) = start) :
    Safe (standing bucketPrefix refName start)
      (faulty answer failed plan) (whenOk fun _ _ => True)
      (compactUnderLock bucketPrefix scratch refName) state := by
  unfold compactUnderLock
  apply (safe_loadChain state).andThen
  rintro found loaded - ⟨-, stored⟩
  cases found with
  | none => exact safe_fail
  | some chain =>
      have was : start = some (.chain chain) := by
        rw [← before]
        exact ((World.chain?_eq_some_iff _ _).1 (stored chain rfl)).1
      dsimp only
      apply
        (safe_quiet
          (issues_downloadChainArtefacts quiet_reads _ _ _ chain)
          loaded).keeping
      intro directory downloaded _ _
      apply Safe.check
      intro built _
      exact safe_commitCompaction was built downloaded

/-- Whatever fails, a compaction leaves a chain that stands. -/
theorem safe_compact
    (scratch : Scratch)
    (force : Bool)
    (ttl : Int)
    {state : World × Nat}
    (before :
      state.1.body? (chainKey bucketPrefix refName) = start) :
    Safe (standing bucketPrefix refName start)
      (faulty answer failed plan) (whenOk fun _ _ => True)
      (compact bucketPrefix scratch refName force ttl) state := by
  have releasing :
      Issues Call.Credible (Quiet bucketPrefix refName)
        (releaseLock (lockKey bucketPrefix refName)) := by
    apply issues_deleteIdempotent
    rw [lockKey_eq]
    exact locks_quiet.unlock
  unfold compact
  apply (safe_loadChain state).andThen
  rintro found loaded - ⟨same, -⟩
  cases found with
  | none => exact safe_fail
  | some prior =>
      dsimp only
      split
      · exact safe_end
      have reading :
          Issues Call.Credible (Quiet bucketPrefix refName)
            (nowUtc : Program PackchainError Int) :=
        issues_request (quiet_reads .nowUtc trivial) (by simp)
      apply (safe_quiet reading loaded).keeping
      intro now timed _ stillTimed
      have holding :
          Safe (standing bucketPrefix refName start)
            (faulty answer failed plan) (whenOk fun _ _ => True)
            (holdingLock (lockKey bucketPrefix refName) ttl now
              (compactUnderLock bucketPrefix scratch refName))
            timed := by
        unfold holdingLock
        apply
          (safe_quiet (locks_quiet.issues_acquireLock ttl now)
            timed).keeping
        intro acquired locked _ stillLocked
        split
        · have unchanged :
              locked.1.body? (chainKey bucketPrefix refName) = start := by
            rw [stillLocked.own, stillTimed.own, same]
            exact before
          apply
            (safe_compactUnderLock scratch unchanged).attempt.andThen
          intro result worked _ _
          apply (safe_quiet releasing worked).attempt.andThen
          intro _ _ _ _
          exact safe_end
        · exact safe_end
      apply holding.convert.andThen
      intro ended _ _ _
      rcases ended with _ | ⟨_ | _, _⟩
      · exact safe_end
      · exact safe_fail
      · exact safe_end

end Chains

/-! ## Wherever a compaction stops -/

section Stops

variable
    [Platform]
    {objects : Objects}
    {contents : Contents}
    {bucketPrefix : Option Text}
    {packer : Packer}
    {ρ : Type}
    {ops : LocalOps ρ}
    {held : ρ → Set Sha}

/-- A compaction that stops after some calls, any of which may fail. -/
def cutOff
    (bucketPrefix : Option Text)
    (plan : FaultPlan Call ObjectStoreError)
    (scratch : Scratch)
    (refName : RefName)
    (force : Bool)
    (ttl : Int)
    (count : Nat)
    (world : World) : World :=
  (stateAfter (faulty answer failed plan) count
    (compact bucketPrefix scratch refName force ttl) (world, 0)).1

variable
    (plan : FaultPlan Call ObjectStoreError)
    (scratch : Scratch)
    (refName : RefName)
    (force : Bool)
    (ttl : Int)
    (count : Nat)
    (world : World)

theorem standing_cutOff :
    Standing bucketPrefix refName
      (world.body? (chainKey bucketPrefix refName))
      (cutOff bucketPrefix plan scratch refName force ttl count world) := by
  have safe :=
    @safe_compact _ bucketPrefix refName _ plan scratch force ttl
      (world, 0) rfl
  exact safe.throughout (fun _ _ => trivial) (.before rfl) count

theorem keeps_cutOff :
    Keeps bucketPrefix refName world
      (cutOff bucketPrefix plan scratch refName force ttl count world) := by
  have issues :=
    Packchain.issues_compact
      (@permits_adds _ bucketPrefix refName) scratch force ttl
  exact
    @Issues.kept_stateAfter _ _ _ _ _ _ _ _
      (fun state : World × Nat =>
        Keeps bucketPrefix refName world state.1)
      (fun request state _ => credible_faulty request state)
      (fun _ _ adds keeps => keeps.faulty plan adds) _ issues (world, 0)
      (.refl world) count

variable {scratch world}

theorem stored_cutOff
    (exact : packer.Exact objects contents)
    (honest :
      ∀ bundle packs repo,
        scratch.install bundle packs = .ok repo →
          ∃ odb, RepoOver repo packer objects contents odb)
    (stored : Stored objects contents bucketPrefix world) :
    Stored objects contents bucketPrefix
      (cutOff bucketPrefix plan scratch refName force ttl count world) := by
  have issues :
      Issuing objects contents bucketPrefix
        (compact bucketPrefix scratch refName force ttl) :=
    issuing_compact exact honest refName force ttl
  refine
    @Issues.kept_stateAfter _ _ _ _ _ _ _ _
      (fun state : World × Nat =>
        Stored objects contents bucketPrefix state.1)
      (fun request _ stored => telling_faulty request stored)
      ?_ _ issues (world, 0) stored count
  intro request state proper stored
  rcases bucket_faulty plan request state with same | same
  · rw [same]
    exact stored
  · rw [same]
    exact stored.call proper

/-- A chain of which everything is there has such a successor. -/
theorem exists_chain_cutOff
    (stored : Stored objects contents bucketPrefix world)
    {other : RefName}
    {chain : ChainManifest}
    (found : world.chain? bucketPrefix other = some chain)
    (present : Present bucketPrefix other chain world)
    (distinct : (chain.segments.map ChainSegment.sha).Nodup) :
    ∃ later : ChainManifest,
      (cutOff bucketPrefix plan scratch refName force ttl count
          world).chain? bucketPrefix other = some later ∧
        later.tip = chain.tip ∧
          Present bucketPrefix other later
            (cutOff bucketPrefix plan scratch refName force ttl count
              world) ∧
          (later.segments.map ChainSegment.sha).Nodup := by
  rcases (World.chain?_eq_some_iff _ _).1 found with ⟨written, version⟩
  have linked : Linked objects contents chain := by
    have there := written
    rw [chainKey_eq] at there
    exact stored _ _ there chain rfl
  have keeps :=
    @keeps_cutOff _ bucketPrefix plan scratch refName force ttl count
      world
  have unchanged
      (same :
        (cutOff bucketPrefix plan scratch refName force ttl count
            world).body? (chainKey bucketPrefix other) =
          world.body? (chainKey bucketPrefix other)) :
      ∃ later : ChainManifest,
        (cutOff bucketPrefix plan scratch refName force ttl count
            world).chain? bucketPrefix other = some later ∧
          later.tip = chain.tip ∧
            Present bucketPrefix other later
              (cutOff bucketPrefix plan scratch refName force ttl count
                world) ∧
            (later.segments.map ChainSegment.sha).Nodup := by
    refine ⟨chain, ?_, rfl, ?_, distinct⟩
    · exact (World.chain?_eq_some_iff _ _).2 ⟨same.trans written, version⟩
    · exact Present.kept linked.canonical present keeps
  by_cases own : other = refName
  · subst own
    cases
        @standing_cutOff _ bucketPrefix plan scratch other force ttl count
          world with
    | before same => exact unchanged same
    | compacted was now version tip canonical distinct present =>
        rw [written] at was
        cases was
        exact
          ⟨_, (World.chain?_eq_some_iff _ _).2 ⟨now, version⟩, tip,
            present, distinct⟩
  · exact unchanged (keeps.others other own)

variable {plan refName force ttl count}

/--
Whatever fails, and wherever a compaction of a bucket that honest clients
have left stops: what could be cloned before can be cloned afterwards, and
the clone has all that the tip of before reaches.
-/
theorem clones_after
    (exact : packer.Exact objects contents)
    (holding : Holding ops contents held)
    (taking : Taking ops contents)
    (honest :
      ∀ bundle packs repo,
        scratch.install bundle packs = .ok repo →
          ∃ odb, RepoOver repo packer objects contents odb)
    {ι : Type}
    [DecidableEq ι]
    {earlier : FaultPlan Call ObjectStoreError}
    {clock : Int}
    {pool :
      Pool ι Ownership.Command Call Reply Unit Empty (World × Nat)}
    (reached :
      (Ownership.clients bucketPrefix earlier ι).Reaches
        (fun pool action =>
          pool.Meets Ownership.Any action ∧
            StartsHonest packer objects contents action)
        (.quiet (.empty clock, 0)) pool)
    {other : RefName}
    {chain : ChainManifest}
    (found : pool.state.1.chain? bucketPrefix other = some chain)
    {cold : ρ}
    (isCold :
      ∀ segment ∈ chain.segments,
        ops.contains cold segment.sha = false)
    {completions : Nat → Completion}
    {sha : Sha}
    {session : FetchSession ρ}
    {after : World}
    (cloned :
      clone ops bucketPrefix completions other sha cold pool.state.1 =
        (.ok session, after)) :
    ∃ later : ChainManifest,
      (cutOff bucketPrefix plan scratch refName force ttl count
          pool.state.1).chain? bucketPrefix other = some later ∧
        later.tip = chain.tip ∧
          ∀ fresh : ρ,
            (∀ segment ∈ later.segments,
              ops.contains fresh segment.sha = false) →
            ∀ (orders : Nat → Completion) (wanted : Sha),
              ∃ warm,
                clone ops bucketPrefix orders other wanted fresh
                    (cutOff bucketPrefix plan scratch refName force ttl
                      count pool.state.1) =
                  (.ok ⟨warm, [wanted], []⟩,
                    cutOff bucketPrefix plan scratch refName force ttl
                      count pool.state.1) ∧
                objects.reach chain.tip ⊆ held warm := by
  have stored := stored_of_reached exact reached
  rcases retries_found found isCold (retries_of_clone cloned) with
    ⟨present, distinct⟩
  rcases
    @exists_chain_cutOff _ objects contents bucketPrefix plan scratch
      refName force ttl count _ stored other chain found present
      distinct with
    ⟨later, there, tip, presentLater, distinctLater⟩
  refine ⟨later, there, tip, ?_⟩
  intro fresh isFresh orders wanted
  rw [← tip]
  exact
    clone_of_stored holding taking
      (stored_cutOff plan refName force ttl count exact honest stored)
      there presentLater distinctLater isFresh orders wanted

end Stops

/-! ## A chain that is written unnoticed -/

section Witness

attribute [local instance] Platform.simple

/-- A compaction in a clone of the small history. -/
def smallScratch : Scratch where
  completion := .inOrder
  install := fun _ _ => .ok smallRepo

/-- The reply to the writing of the compacted chain is lost. -/
def lostReply : FaultPlan Call ObjectStoreError :=
  fun _ request =>
    match request with
    | .put _ (.chain _) => some ⟨.network, true⟩
    | _ => none

/-- What is left of the broken bucket once its lock has expired. -/
def expired : List (CallProgram.Action Nat Ownership.Command) :=
  brokenOff ++ [.elapse 100]

/-- How many segments the chain has, as far as it is there. -/
def segmentCount (world : World) : Option Nat :=
  (world.chain? none .main).map fun chain => chain.segments.length

theorem startsHonest_expired :
    ∀ action ∈ expired,
      StartsHonest smallPacker smallObjects .digits action := by
  intro action listed
  rcases List.mem_append.1 listed with before | last
  · exact startsHonest_brokenOff action before
  · rw [List.mem_singleton.1 last]
    trivial

theorem clones_after_lostReply :
    ∃ pool chain later warm,
      (Ownership.clients none lostChain Nat).schedule?
          (fun pool => pool.Meets Ownership.Any) expired
          (.quiet (.empty 0, 0)) = some pool ∧
        pool.state.1.chain? none .main = some chain ∧
        chain.segments.length = 2 ∧
        (cutOff none lostReply smallScratch .main true 60 12
            pool.state.1).chain? none .main = some later ∧
        later.segments.length = 1 ∧
        clone (FetchClosure.LocalOps.taking .digits) none
            (fun _ => .reversed) .main later.tip ∅
            (cutOff none lostReply smallScratch .main true 60 12
              pool.state.1) =
          (.ok ⟨warm, [later.tip], []⟩,
            cutOff none lostReply smallScratch .main true 60 12
              pool.state.1) ∧
        smallObjects.reach chain.tip ⊆ (warm : Set Sha) := by
  have executed :
      ((Ownership.clients none lostChain Nat).schedule?
          (fun pool => pool.Meets Ownership.Any) expired
          (.quiet (.empty 0, 0))).bind
        (fun pool =>
          (pool.state.1.chain? none .main).map fun chain =>
            (whole chain pool.state.1, chain.segments.length,
              segmentCount
                (cutOff none lostReply smallScratch .main true 60 12
                  pool.state.1))) =
        some (true, 2, some 1) := by
    decide +kernel
  rcases Option.bind_eq_some_iff.1 executed with ⟨pool, reached, known⟩
  rcases Option.map_eq_some_iff.1 known with ⟨chain, found, facts⟩
  simp only [Prod.mk.injEq] at facts
  rcases facts with ⟨checked, length, counted⟩
  rcases Option.map_eq_some_iff.1 counted with ⟨compacted, there, one⟩
  have parts := whole_iff.1 checked
  have isCold (chain : ChainManifest) :
      ∀ segment ∈ chain.segments,
        (FetchClosure.LocalOps.taking .digits).contains ∅ segment.sha =
          false := by
    intro segment _
    exact decide_eq_false (Finset.notMem_empty segment.sha)
  have honest := System.Reaches.refl.scheduled startsHonest_expired reached
  rcases
    clone_of_stored (FetchClosure.holding_taking .digits)
      (taking_taking .digits)
      (stored_of_reached (exact_checked smallObjects smallBound) honest)
      found parts.1 parts.2 (isCold chain) (fun _ => .inOrder)
      chain.tip with
    ⟨_, cloned, -⟩
  rcases
    @clones_after _ smallObjects .digits none smallPacker _ _ _ lostReply
      smallScratch .main true 60 12
      (exact_checked smallObjects smallBound)
      (FetchClosure.holding_taking .digits) (taking_taking .digits)
      (fun _ _ _ installed => by
        cases installed
        exact ⟨_, over_small⟩)
      _ _ _ _ pool honest .main chain found _ (isCold chain) _ _ _ _
      cloned with
    ⟨later, same, -, clones⟩
  rw [there] at same
  cases same
  rcases
    clones ∅ (isCold _) (fun _ => .reversed) compacted.tip with
    ⟨warm, ran, has⟩
  exact
    ⟨pool, chain, compacted, warm, reached, found, length, there, one,
      ran, has⟩

end Witness

end GitRemoteObjectStore.CompactionCuts
