import Mathlib.Data.List.Chain
import GitRemoteObjectStore.Interference
import GitRemoteObjectStore.PackchainSections
import GitRemoteObjectStore.Repository

/-!
# The shape of stored chains

Any number of clients work on any references of a packchain repository, each
locked section being one step.  Every stored chain is a list of segments
linked from its tip down to its baseline, and its path index is the tip's,
or absent if the tip is a blob.
-/

namespace GitRemoteObjectStore.ChainShape

open CallProgram Prog Packchain

/-! ## Shaped chains -/

/-- Segments linked by their parents, from the tip to the baseline. -/
structure Shaped (chain : ChainManifest) : Prop where
  version : chain.v = ChainManifest.schemaVersion
  newest :
    chain.segments.head?.map ChainSegment.sha = some chain.tip
  linked :
    chain.segments.IsChain fun newer older =>
      newer.parentSha = some older.sha
  oldest :
    ∀ last, chain.segments.getLast? = some last →
      last.parentSha = none ∧ chain.fullAt = last.sha

theorem Shaped.nonempty
    {chain : ChainManifest}
    (shaped : Shaped chain) :
    chain.segments ≠ [] := by
  intro empty
  have newest := shaped.newest
  rw [empty] at newest
  cases newest

/-- A chain of one segment at its tip is shaped. -/
theorem shaped_single (tip pack : Sha40) (bytes : Nat) :
    Shaped
      { v := ChainManifest.schemaVersion
        tip := tip
        fullAt := tip
        segments := [⟨tip, none, packKey none pack, bytes⟩] } where
  version := rfl
  newest := rfl
  linked := List.isChain_singleton _
  oldest := by
    intro last same
    cases same
    exact ⟨rfl, rfl⟩

/-- A push on top of a shaped chain makes a shaped chain. -/
theorem shaped_committedManifest
    [Platform]
    {ready : ReadyState}
    (prior : ∀ chain, ready.prior = some chain → Shaped chain) :
    Shaped (committedManifest ready) := by
  unfold committedManifest
  by_cases root : ready.force = true ∨ ready.prior = none
  · rw [nextManifest_root _ _ _ _ root]
    exact shaped_single _ _ _
  · push Not at root
    rcases root with ⟨unforced, some?⟩
    rcases Option.ne_none_iff_exists'.1 some? with ⟨chain, same⟩
    have shaped := prior chain same
    rw [Bool.eq_false_iff.2 unforced, same]
    constructor
    case version => rfl
    case newest => rfl
    case linked =>
        have newest := shaped.newest
        have linked := shaped.linked
        simp only [nextManifest]
        cases segments : chain.segments with
        | nil => exact absurd segments shaped.nonempty
        | cons first rest =>
            rw [segments] at newest linked
            have same := congrArg some (Option.some.inj newest).symm
            exact List.isChain_cons_cons.2 ⟨same, linked⟩
    case oldest =>
        intro last found
        have oldest := shaped.oldest
        simp only [nextManifest] at found ⊢
        cases segments : chain.segments with
        | nil => exact absurd segments shaped.nonempty
        | cons first rest =>
            rw [segments] at found oldest
            rw [List.getLast?_cons_cons] at found
            exact oldest last found

theorem shaped_compactedManifest
    (chain : ChainManifest)
    (pack : BuiltPack) :
    Shaped (compactedManifest chain pack) :=
  shaped_single _ _ _

/-! ## Regular buckets -/

section Buckets

variable
    [Platform]
    {peelsToBlob : Sha → Bool}
    {bucketPrefix : Option Text}

/-- The path index a chain asks for. -/
def Indexed
    (peelsToBlob : Sha → Bool)
    (bucketPrefix : Option Text)
    (refName : RefName)
    (tip : Sha)
    (world : World) : Prop :=
  if peelsToBlob tip then
    world.get? (pathIndexKey bucketPrefix refName) = none
  else
    ∃ index,
      world.body? (pathIndexKey bucketPrefix refName) =
          some (.pathIndex index) ∧
        index.tip = tip

/-- Every stored chain is shaped and has the path index it asks for. -/
def Regular
    (peelsToBlob : Sha → Bool)
    (bucketPrefix : Option Text)
    (world : World) : Prop :=
  ∀ refName body,
    world.body? (chainKey bucketPrefix refName) = some body →
      ∃ chain,
        body = .chain chain ∧ Shaped chain ∧
          Indexed peelsToBlob bucketPrefix refName chain.tip world

/-- A chain that can be read is one of those. -/
theorem Regular.shaped
    {world : World}
    (regular : Regular peelsToBlob bucketPrefix world)
    {refName : RefName}
    {chain : ChainManifest}
    (found : world.chain? bucketPrefix refName = some chain) :
    Shaped chain ∧
      Indexed peelsToBlob bucketPrefix refName chain.tip world := by
  have stored := (World.chain?_eq_some_iff _ _).1 found
  rcases regular refName _ stored.1 with ⟨_, same, rest⟩
  cases same
  exact rest

/-- Two buckets with the same chain and path index of a reference. -/
def SameRecords
    (bucketPrefix : Option Text)
    (refName : RefName)
    (before after : World) : Prop :=
  after.slot? bucketPrefix (.ref refName .chain) =
      before.slot? bucketPrefix (.ref refName .chain) ∧
    after.slot? bucketPrefix (.ref refName .pathIndex) =
      before.slot? bucketPrefix (.ref refName .pathIndex)

omit [Platform] in
theorem get?_eq_none_iff {world : World} {key : Text} :
    world.get? key = none ↔ world.body? key = none := by
  unfold World.body?
  rw [Option.map_eq_none_iff]

theorem indexed_congr
    {refName : RefName}
    {tip : Sha}
    {before after : World}
    (same :
      after.slot? bucketPrefix (.ref refName .pathIndex) =
        before.slot? bucketPrefix (.ref refName .pathIndex)) :
    Indexed peelsToBlob bucketPrefix refName tip after ↔
      Indexed peelsToBlob bucketPrefix refName tip before := by
  unfold World.slot? at same
  rw [← pathIndexKey_eq] at same
  unfold Indexed
  rw [get?_eq_none_iff, get?_eq_none_iff, same]

/-- What becomes of one reference's records in a regular bucket. -/
def Updated
    (peelsToBlob : Sha → Bool)
    (bucketPrefix : Option Text)
    (refName : RefName)
    (before after : World) : Prop :=
  SameRecords bucketPrefix refName before after ∨
    after.slot? bucketPrefix (.ref refName .chain) = none ∨
    ∃ chain,
      after.slot? bucketPrefix (.ref refName .chain) =
          some (.chain chain) ∧
        Shaped chain ∧
          Indexed peelsToBlob bucketPrefix refName chain.tip after

/-- A bucket stays regular if every reference's records do. -/
theorem Regular.updated
    {before after : World}
    (regular : Regular peelsToBlob bucketPrefix before)
    (updated :
      ∀ refName,
        Updated peelsToBlob bucketPrefix refName before after) :
    Regular peelsToBlob bucketPrefix after := by
  intro refName body stored
  have slot :
      after.slot? bucketPrefix (.ref refName .chain) = some body := by
    rw [World.slot?, ← chainKey_eq]
    exact stored
  rcases updated refName with same | gone | ⟨chain, written, rest⟩
  · rw [same.1, World.slot?, ← chainKey_eq] at slot
    rcases regular refName body slot with ⟨chain, rfl, shaped, index⟩
    exact ⟨chain, rfl, shaped, (indexed_congr same.2).2 index⟩
  · rw [gone] at slot
    cases slot
  · rw [written] at slot
    cases slot
    exact ⟨chain, rfl, rest⟩

/-! ## What the calls and the locked sections keep -/

/-- A call that writes no chain and no path index. -/
def Apart (bucketPrefix : Option Text) (request : Call) : Prop :=
  ∀ refName : RefName,
    ¬ request.Writes ((Slot.ref refName .chain).key bucketPrefix) ∧
      ¬ request.Writes ((Slot.ref refName .pathIndex).key bucketPrefix)

theorem Regular.afterCall
    {world : World}
    (regular : Regular peelsToBlob bucketPrefix world)
    {request : Call}
    (apart : Apart bucketPrefix request) :
    Regular peelsToBlob bucketPrefix (answer request world).2 := by
  apply regular.updated
  intro refName
  left
  exact
    ⟨body?_answer_of_not_writes (apart refName).1 world,
      body?_answer_of_not_writes (apart refName).2 world⟩

theorem apart_reads
    (request : Call)
    (reads : request.Reads) :
    Apart bucketPrefix request := by
  intro refName
  cases request with
  | put other body => exact reads.elim
  | putIfAbsent other body => exact reads.elim
  | delete other => exact reads.elim
  | _ => exact ⟨fun writes => writes, fun writes => writes⟩

theorem apart_put
    {slot : Slot}
    (body : Body)
    (notChain : ∀ refName, slot ≠ .ref refName .chain)
    (notIndex : ∀ refName, slot ≠ .ref refName .pathIndex) :
    Apart bucketPrefix (.put (slot.key bucketPrefix) body) := by
  intro refName
  constructor
  · intro writes
    exact notChain refName ((Slot.key_inj bucketPrefix).1 writes.symm)
  · intro writes
    exact notIndex refName ((Slot.key_inj bucketPrefix).1 writes.symm)

/-- The tag chain ends in a blob. -/
def isBlob : PeeledTip → Bool
  | .commit _ _ => false
  | .tree _ _ => false
  | .blob _ _ => true

/-- A repository peels the tips it has as git does. -/
def Peels (peelsToBlob : Sha → Bool) (repo : LocalRepo) : Prop :=
  ∀ tip peeled,
    repo.peelTagChain tip = .ok peeled → peelsToBlob tip = isBlob peeled

omit [Platform] in
/-- The path index that is extracted is the one the tip asks for. -/
theorem Peels.extracted
    {repo : LocalRepo}
    (peels : Peels peelsToBlob repo)
    {tip : Sha}
    {peeled : PeeledTip}
    (peeling : repo.peelTagChain tip = .ok peeled)
    {pathIndex : Option PathIndex}
    (extracted : repo.extractPathIndex peeled tip = .ok pathIndex) :
    if peelsToBlob tip then pathIndex = none
    else ∃ index, pathIndex = some index ∧ index.tip = tip := by
  have indexed :
      isBlob peeled = false →
        ∃ index, pathIndex = some index ∧ index.tip = tip := by
    intro notBlob
    cases pathIndex with
    | some index =>
        exact ⟨index, rfl, LocalRepo.extractPathIndex_tip extracted⟩
    | none =>
        unfold LocalRepo.extractPathIndex at extracted
        cases peeled with
        | commit commit tags =>
            simp only at extracted
            split at extracted
            · split at extracted <;> cases extracted
            · cases extracted
        | tree tree tags =>
            simp only at extracted
            split at extracted <;> cases extracted
        | blob blob tags => cases notBlob
  rw [peels tip peeled peeling]
  cases peeled with
  | blob blob tags =>
      cases extracted
      rfl
  | commit commit tags => exact indexed rfl
  | tree tree tags => exact indexed rfl

/-- The index of the tip has just been written, or there is none. -/
theorem indexed_of_slot
    {refName : RefName}
    {tip : Sha}
    {pathIndex : Option PathIndex}
    {world : World}
    (asked :
      if peelsToBlob tip then pathIndex = none
      else ∃ index, pathIndex = some index ∧ index.tip = tip)
    (stored :
      world.slot? bucketPrefix (.ref refName .pathIndex) =
        pathIndex.map .pathIndex) :
    Indexed peelsToBlob bucketPrefix refName tip world := by
  rw [World.slot?, ← pathIndexKey_eq] at stored
  unfold Indexed
  rw [get?_eq_none_iff, stored]
  cases blob : peelsToBlob tip with
  | true =>
      rw [blob, if_pos rfl] at asked
      rw [if_pos rfl, asked]
      rfl
  | false =>
      rw [blob, if_neg Bool.false_ne_true] at asked
      rw [if_neg Bool.false_ne_true]
      rcases asked with ⟨index, rfl, same⟩
      exact ⟨index, rfl, same⟩

/-! ### Pushes -/

theorem slot?_chained
    {ready : ReadyState}
    {world : World}
    {refName : RefName}
    {entry : Entry} :
    (chained bucketPrefix ready world).slot? bucketPrefix
        (.ref refName entry) =
      if Slot.ref refName entry = .ref ready.remoteRef .chain then
        some (.chain (committedManifest ready))
      else world.slot? bucketPrefix (.ref refName entry) := by
  unfold chained formatted
  rw [chainKey_eq, slot?_put, headKey_eq, formatKey_eq,
    slot?_putIfAbsent_ne (by simp), slot?_putIfAbsent_ne (by simp)]

theorem slot?_committed
    {ready : ReadyState}
    {pathIndex : Option PathIndex}
    {world : World}
    {refName : RefName}
    {entry : Entry} :
    (committed bucketPrefix ready pathIndex world).slot? bucketPrefix
        (.ref refName entry) =
      if Slot.ref refName entry = .ref ready.remoteRef .pathIndex then
        pathIndex.map .pathIndex
      else if Slot.ref refName entry = .ref ready.remoteRef .chain then
        some (.chain (committedManifest ready))
      else world.slot? bucketPrefix (.ref refName entry) := by
  unfold committed
  rw [slot?_cleaned (by simp)]
  by_cases index :
      Slot.ref refName entry = .ref ready.remoteRef .pathIndex
  · rw [if_pos index, index]
    unfold indexed
    rw [pathIndexKey_eq]
    cases pathIndex with
    | none => rw [slot?_remove, if_pos rfl]; rfl
    | some index => rw [slot?_put, if_pos rfl]; rfl
  · rw [if_neg index, slot?_indexed index, slot?_chained]

/-- A push keeps a bucket regular. -/
theorem Regular.push
    {world : World}
    (regular : Regular peelsToBlob bucketPrefix world)
    {repo : LocalRepo}
    (peels : Peels peelsToBlob repo)
    {ready : ReadyState}
    (prior : ∀ chain, ready.prior = some chain → Shaped chain) :
    Regular peelsToBlob bucketPrefix
      (run answer (performPushUnderLock bucketPrefix repo ready)
        world).2 := by
  rcases run_performPushUnderLock repo ready world with
    ⟨pathIndex, accepts, ran⟩ | ⟨-, outcome, -, ran⟩
  · rw [ran]
    have asked :
        if peelsToBlob ready.localSha then pathIndex = none
        else
          ∃ index, pathIndex = some index ∧
            index.tip = ready.localSha := by
      have extracted := accepts.pathIndex
      unfold pathIndexOf at extracted
      split at extracted
      · cases extracted
      · split at extracted
        · cases extracted
        next peeled peeling => exact peels.extracted peeling extracted
    apply regular.updated
    intro refName
    by_cases own : refName = ready.remoteRef
    · subst own
      right
      right
      refine
        ⟨committedManifest ready, ?_, shaped_committedManifest prior, ?_⟩
      · rw [slot?_committed, if_neg (by simp), if_pos rfl]
      · have tip : (committedManifest ready).tip = ready.localSha :=
          nextManifest_tip _ _ _ _
        rw [tip]
        apply indexed_of_slot asked
        rw [slot?_committed, if_pos rfl]
    · left
      constructor
      · rw [slot?_committed, if_neg (by simp), if_neg (by simp [own])]
      · rw [slot?_committed, if_neg (by simp [own]), if_neg (by simp)]
  · rw [ran]
    exact regular

/-! ### Compactions -/

theorem slot?_rechained
    {chain : ChainManifest}
    {built : BuiltPack × Option PathIndex × List UInt8}
    {world : World}
    {refName other : RefName}
    {entry : Entry}
    (notBundle : ∀ sha, entry ≠ .bundle sha) :
    (rechained bucketPrefix refName chain built world).slot? bucketPrefix
        (.ref other entry) =
      if Slot.ref other entry = .ref refName .chain then
        some (.chain (compactedManifest chain built.1))
      else world.slot? bucketPrefix (.ref other entry) := by
  have other? :
      Slot.ref other entry ≠ .ref refName (.bundle chain.tip) := by
    rintro same
    cases same
    exact notBundle _ rfl
  unfold rechained
  rw [chainKey_eq, bundleKey_eq, packIdxKey_eq, packKey_eq]
  simp only [slot?_put, other?, reduceCtorEq, if_false]

theorem slot?_compacted
    {chain : ChainManifest}
    {built : BuiltPack × Option PathIndex × List UInt8}
    {world : World}
    {refName other : RefName}
    {entry : Entry}
    (notBundle : ∀ sha, entry ≠ .bundle sha) :
    (compacted bucketPrefix refName chain built world).slot? bucketPrefix
        (.ref other entry) =
      if Slot.ref other entry = .ref refName .pathIndex ∧
          built.2.1.isSome then
        built.2.1.map .pathIndex
      else if Slot.ref other entry = .ref refName .chain then
        some (.chain (compactedManifest chain built.1))
      else world.slot? bucketPrefix (.ref other entry) := by
  unfold compacted
  have untombed (indexed : World) :
      (if chain.fullAt = chain.tip then indexed
          else indexed.tombstone bucketPrefix refName chain.fullAt).slot?
          bucketPrefix (.ref other entry) =
        indexed.slot? bucketPrefix (.ref other entry) := by
    split
    · rfl
    · exact slot?_tombstone (by simp)
  rw [untombed]
  cases built.2.1 with
  | none =>
      simp only [Option.isSome_none, Bool.false_eq_true, and_false,
        if_false]
      exact slot?_rechained notBundle
  | some index =>
      simp only [Option.isSome_some, and_true]
      rw [pathIndexKey_eq, slot?_put, slot?_rechained notBundle]
      rfl

/-- A compaction keeps a bucket regular. -/
theorem Regular.compact
    {world : World}
    (regular : Regular peelsToBlob bucketPrefix world)
    {scratch : Scratch}
    (peels :
      ∀ bundle packs repo,
        scratch.install bundle packs = .ok repo → Peels peelsToBlob repo)
    (refName : RefName) :
    Regular peelsToBlob bucketPrefix
      (run answer (compactUnderLock bucketPrefix scratch refName)
        world).2 := by
  rcases run_compactUnderLock scratch refName world with
    ⟨chain, directory, built, loaded, -, builds, ran⟩ | ⟨error, ran⟩
  · rw [ran]
    rcases rebuild_ok.1 builds with ⟨repo, peeled, rebuilt⟩
    rcases exists_install rebuilt.installed with
      ⟨bundle, packs, installed⟩
    have asked :
        if peelsToBlob chain.tip then built.2.1 = none
        else
          ∃ index, built.2.1 = some index ∧ index.tip = chain.tip :=
      (peels bundle packs repo installed).extracted rebuilt.peels
        rebuilt.pathIndex
    have before := (regular.shaped (loadedChain_eq_ok _ _ _ loaded)).2
    apply regular.updated
    intro other
    by_cases own : other = refName
    · subst own
      right
      right
      refine
        ⟨compactedManifest chain built.1, ?_,
          shaped_compactedManifest chain built.1, ?_⟩
      · rw [slot?_compacted (by simp), if_neg (by simp), if_pos rfl]
      · change Indexed peelsToBlob bucketPrefix other chain.tip _
        cases index : built.2.1 with
        | some written =>
            apply indexed_of_slot asked
            rw [slot?_compacted (by simp), if_pos (by simp [index])]
        | none =>
            have unwritten :=
              @slot?_compacted _ bucketPrefix chain built world other
                other .pathIndex (by simp)
            rw [if_neg (by simp [index]), if_neg (by simp)] at unwritten
            exact (indexed_congr unwritten).2 before
    · left
      constructor
      · rw [slot?_compacted (by simp), if_neg (by simp),
          if_neg (by simp [own])]
      · rw [slot?_compacted (by simp), if_neg (by simp [own]),
          if_neg (by simp)]
  · rw [ran]
    exact regular

/-! ### Deletions -/

/-- A sweep takes the chain and the path index of a reference together. -/
theorem Regular.sweep
    {world : World}
    (regular : Regular peelsToBlob bucketPrefix world)
    (refName : RefName) :
    Regular peelsToBlob bucketPrefix
      (sweptRef bucketPrefix refName world) := by
  apply regular.updated
  intro other
  by_cases under : (Slot.ref other .chain).Under refName
  · right
    left
    exact slot?_sweptRef_of_under under (by simp) (by simp)
  · left
    exact
      ⟨slot?_sweptRef_of_not_under under (by simp),
        slot?_sweptRef_of_not_under under (by simp)⟩

theorem Regular.delete
    {world : World}
    (regular : Regular peelsToBlob bucketPrefix world)
    (refName : RefName) :
    Regular peelsToBlob bucketPrefix
      (run answer (deleteUnderLock bucketPrefix refName) world).2 := by
  by_cases refused :
      world.get? (chainKey bucketPrefix refName) = none ∨
        entriesHaveProtectedMarker
            (world.listing (refListingPrefix bucketPrefix refName)) =
          true
  · rcases run_deleteUnderLock_refused refused with ⟨message, ran⟩
    rw [ran]
    exact regular
  · rw [not_or] at refused
    rw [run_deleteUnderLock (Option.isSome_iff_ne_none.2 refused.1)
      (Bool.eq_false_iff.2 refused.2)]
    exact regular.sweep refName

theorem Regular.deleteBranch
    {world : World}
    (regular : Regular peelsToBlob bucketPrefix world)
    (refName : RefName) :
    Regular peelsToBlob bucketPrefix
      (run answer (deleteBranchUnderLock bucketPrefix refName)
        world).2 := by
  by_cases deletes : BranchDeletes bucketPrefix refName world
  · rcases run_deleteBranchUnderLock deletes with ⟨count, ran⟩
    rw [ran]
    exact regular.sweep refName
  · rw [(run_deleteBranchUnderLock_refused deletes).2]
    exact regular

end Buckets

/-! ## Clients of a repository -/

section Clients

variable
    [Platform]
    {peelsToBlob : Sha → Bool}
    {bucketPrefix : Option Text}

/-- The repositories an operation works in peel tips as git does. -/
def Agrees (peelsToBlob : Sha → Bool) : Operation → Prop
  | .push repo _ _ => Peels peelsToBlob repo
  | .compact scratch _ =>
      ∀ bundle packs repo,
        scratch.install bundle packs = .ok repo → Peels peelsToBlob repo
  | .deleteBranch _ => True

/-- What a task carries into the lock. -/
def Carried (peelsToBlob : Sha → Bool) : Task → Prop
  | .push repo ready =>
      Peels peelsToBlob repo ∧
        ∀ chain, ready.prior = some chain → Shaped chain
  | .compact scratch =>
      ∀ bundle packs repo,
        scratch.install bundle packs = .ok repo → Peels peelsToBlob repo
  | .delete => True
  | .deleteBranch => True

/-- The contract of a program that writes no chain and no path index. -/
abbrev regularity
    (peelsToBlob : Sha → Bool)
    (bucketPrefix : Option Text) : Contract Call World :=
  Contract.within (Regular peelsToBlob bucketPrefix)

/-- An upload writes no chain and no path index. -/
theorem safe_upload
    (refName : RefName)
    (localSha : Sha)
    (built : BuiltPack × Option (List UInt8))
    (world : World) :
    Safe (regularity peelsToBlob bucketPrefix) answer
      (whenOk fun _ _ => True)
      (uploadPackIdxBaseline bucketPrefix refName localSha built.1
        built.2)
      world := by
  have issues :
      Issues Call.Credible (Apart bucketPrefix)
        (uploadPackIdxBaseline bucketPrefix refName localSha built.1
          built.2) := by
    apply issues_uploadPackIdxBaseline
    intro slot content upload
    apply apart_put
    · rintro other rfl
      exact upload
    · rintro other rfl
      exact upload
  have safe :
      Safe (regularity peelsToBlob bucketPrefix) answer
        (fun _ _ => True)
        (uploadPackIdxBaseline bucketPrefix refName localSha built.1
          built.2)
        world := by
    apply
      issues.safe credible_answer _ (fun _ _ _ _ => trivial) trivial
    intro request state apart regular _ _
    exact ⟨⟨regular.afterCall apart, trivial⟩, trivial⟩
  apply safe.weaken
  intro outcome _ _ _
  cases outcome with
  | ok value => trivial
  | error error => trivial

/-- A preparation carries shaped chains and the repositories it works in. -/
theorem safe_prepare
    (refName : RefName)
    (operation : Operation)
    (agrees : Agrees peelsToBlob operation)
    (world : World) :
    Safe (regularity peelsToBlob bucketPrefix) answer
      (whenOk fun prepared _ =>
        ∀ task, prepared = some task → Carried peelsToBlob task)
      (prepare bucketPrefix refName operation) world := by
  have readable : PermitsReads (regularity peelsToBlob bucketPrefix) :=
    fun request state reads regular =>
      ⟨regular.afterCall (apart_reads request reads), trivial⟩
  apply
    @keeping_prepare _ _ _ _
      (fun _ task _ => Carried peelsToBlob task) readable
      (fun _ _ _ _ _ carried => carried)
  case push =>
      rintro repo force localSpec rfl -
      have prepared :=
        @keeping_preparePush _
          (regularity peelsToBlob bucketPrefix) bucketPrefix world repo
          ⟨force, localSpec, refName⟩ (fun chain _ => Shaped chain)
          (fun _ _ _ => True) (fun _ => trivial)
          (fun _ _ _ => trivial)
          (fun state chain regular found => by
            exact (regular.shaped found).1)
          (fun _ _ _ _ shaped => shaped) (fun _ _ _ _ _ _ => trivial)
          (fun _ found built state _ _ =>
            safe_upload refName found.localSha built state)
      apply prepared.weaken
      intro outcome _ _ carries
      cases outcome with
      | error error => trivial
      | ok outcome =>
          exact fun ready same => ⟨agrees, (carries ready same).2.1⟩
  case delete => exact fun _ _ _ _ => trivial
  case compact =>
      rintro scratch force _ rfl
      exact agrees
  case deleteBranch => exact fun _ _ _ => trivial

/-- Preparations and whole sections keep a repository regular. -/
theorem keeps_regular (ι : Type) :
    (repository (Agrees peelsToBlob) bucketPrefix ι).Keeps
      (regularity peelsToBlob bucketPrefix)
      (fun _ found _ => Carried peelsToBlob found.2) where
  fair := fun _ _ _ => trivial
  met := fun _ _ => trivial
  stable := fun _ _ _ _ _ carried => carried
  begin := fun _ _ regular => ⟨regular, trivial⟩
  elapse := fun _ _ regular => ⟨regular, trivial⟩
  prepare := by
    intro client command world
    apply
      (safe_prepare command.refName command.operation command.allowed
        world).andThen
    intro prepared _ _ carried _ _ _ found same
    rcases Option.map_eq_some_iff.1 same with ⟨task, rfl, rfl⟩
    exact carried task rfl
  work := by
    rintro client command ⟨refName, task⟩ world regular carried
    refine ⟨?_, trivial⟩
    change
      Regular peelsToBlob bucketPrefix
        (run answer (work bucketPrefix refName task) world).2
    cases task with
    | push repo ready =>
        simp only [work, run_toEffect]
        exact regular.push carried.1 carried.2
    | delete =>
        simp only [work, run_toEffect]
        exact regular.delete refName
    | compact scratch =>
        simp only [work, run_toEffect]
        exact regular.compact carried refName
    | deleteBranch =>
        simp only [work, run_toEffect]
        exact regular.deleteBranch refName

/--
Whatever clients have done in whole sections, every stored chain is shaped,
and its path index is the tip's, or absent if the tip is a blob.
-/
theorem regular_of_reached
    {ι : Type}
    [DecidableEq ι]
    {clock : Int}
    {pool :
      Pool ι (Command (Agrees peelsToBlob)) Call Reply Unit
        (RefName × Task) World}
    (reached :
      (repository (Agrees peelsToBlob) bucketPrefix ι).Reaches
        (fun _ action => action.Whole) (.quiet (.empty clock)) pool) :
    Regular peelsToBlob bucketPrefix pool.state := by
  have initial :
      Regular peelsToBlob bucketPrefix (.empty clock) := by
    intro refName body stored
    rw [World.body?_empty] at stored
    cases stored
  exact
    (reached.kept (keeps_regular ι) (fun _ _ whole => whole)
      initial).holds

end Clients

/-! ## A schedule -/

section Schedules

attribute [local instance] Platform.simple

/-- A push of one commit of the linear history. -/
def pushOf (force : Bool) (localSpec : Text) :
    Command (Agrees fun _ => false) where
  refName := .main
  operation := .push .linear force localSpec
  allowed := by
    intro tip peeled peels
    cases peels
    rfl

/-- A compaction in a clone of the linear history. -/
def compaction : Command (Agrees fun _ => false) where
  refName := .main
  operation := .compact .linear true
  allowed := by
    intro bundle packs repo same tip peeled peels
    cases same
    cases peels
    rfl

/-- Two pushes, a third one prepared, a compaction, and the third commits. -/
def pushedAround : List (Action Nat (Command (Agrees fun _ => false))) :=
  .start 0 (pushOf false ['a']) :: Action.calls 0 4 ++
    .settle 0 :: .atomic 0 ::
    .start 0 (pushOf false ['b']) :: Action.calls 0 3 ++
    .settle 0 :: .atomic 0 ::
    .start 1 (pushOf false ['c']) :: Action.calls 1 3 ++
    .settle 1 ::
    .start 0 compaction :: Action.calls 0 2 ++
    [.settle 0, .atomic 0, .atomic 1]

theorem regular_of_reached_pushedAround :
    ∃ pool,
      (repository (Agrees fun _ => false) none Nat).schedule?
          (fun _ action => action.Whole) pushedAround
          (.quiet (.empty 0)) = some pool ∧
        ((pool.state.chain? none .main).map fun chain =>
            chain.segments.length) = some 3 ∧
        Regular (fun _ => false) none pool.state := by
  have executed :
      ((repository (Agrees fun _ => false) none Nat).schedule?
          (fun _ action => action.Whole) pushedAround
          (.quiet (.empty 0))).map
        (fun pool =>
          (pool.state.chain? none .main).map fun chain =>
            chain.segments.length) =
        some (some 3) := by
    decide +kernel
  rcases Option.map_eq_some_iff.1 executed with ⟨pool, reached, known⟩
  exact
    ⟨pool, reached, known,
      regular_of_reached (System.Reaches.refl.schedule reached)⟩

end Schedules

end GitRemoteObjectStore.ChainShape
