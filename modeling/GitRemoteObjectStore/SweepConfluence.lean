import GitRemoteObjectStore.KeyCodec
import GitRemoteObjectStore.Library.Faults
import GitRemoteObjectStore.Library.Pool
import GitRemoteObjectStore.Library.WorkOrders

/-!
# Sweeps that break off, and sweeps side by side

A sweep may stop after any of its calls and be run again, and any number of
sweeps may take turns at single calls.  As long as no `chain.json` changes
and the clock stands still, the tombstones found at the beginning decide what
is left at the end: they are orders kept in the store they are about.
-/

namespace GitRemoteObjectStore.SweepConfluence

open CallProgram Prog Packchain
open Arrivals (Completion)

section Sweeps

variable
    [Platform]
    (bucketPrefix : Option Text)
    (opts : SweepOpts)

/-! ## Tombstones as orders -/

/-- Whether a tombstone of that age is applied. -/
def due (clock : Int) (markedAt : Option Int) : Bool :=
  opts.force ||
    markedAt.any fun marked =>
      decide (graceDecision (clock - marked) opts.graceHours = .past)

/-- What the application of a pack tombstone removes. -/
def packTargets
    (world : World) (tombstone : Tombstone) : Option (List Text) :=
  if due opts world.clock tombstone.markedAt then
    match referencedPacks .inOrder bucketPrefix world with
    | .error _ => if tombstone.orphanPacks = [] then some [] else none
    | .ok referenced =>
        some
          ((tombstone.orphanPacks.filter fun sha =>
              !referenced.contains sha).flatMap
            fun sha =>
              [packKey bucketPrefix sha, packIdxKey bucketPrefix sha])
  else none

/-- What the application of a baseline tombstone removes. -/
def baselineTargets
    (world : World) (tombstone : BaselineTombstone) : Option (List Text) :=
  if due opts world.clock tombstone.markedAt then
    (RefName.new tombstone.refName).bind fun refName =>
      match loadedChain (world.body? (chainKey bucketPrefix refName)) with
      | .error _ => none
      | .ok chain =>
          if baselineIs chain tombstone.sha then some []
          else some [bundleKey bucketPrefix refName tombstone.sha]
  else none

/-- What the object at a key orders; none if a sweep passes it by. -/
def targets (world : World) (key : Text) : Option (List Text) :=
  if lit ".json" <:+ key then
    if isTombstoneKey key (prefixText bucketPrefix) then
      (world.body? key).bind fun body =>
        (Tombstone.fromJsonBytes body).toOption.bind
          (packTargets bucketPrefix opts world)
    else if isBaselineTombstoneKey key (prefixText bucketPrefix) then
      (world.body? key).bind fun body =>
        (BaselineTombstone.fromJsonBytes body).toOption.bind
          (baselineTargets bucketPrefix opts world)
    else none
  else none

variable {bucketPrefix opts}

/-- The key and the content of an order. -/
theorem targets_cases
    {world : World}
    {order : Text}
    {list : List Text}
    (named : targets bucketPrefix opts world order = some list) :
    lit ".json" <:+ order ∧
      (world.body? order).isSome ∧
        (isTombstoneKey order (prefixText bucketPrefix) = true ∧
            (∃ tombstone,
              packTargets bucketPrefix opts world tombstone =
                some list) ∨
          isBaselineTombstoneKey order (prefixText bucketPrefix) = true ∧
            ∃ tombstone,
              baselineTargets bucketPrefix opts world tombstone =
                some list) := by
  unfold targets at named
  split at named
  next json =>
      refine ⟨json, ?_⟩
      split at named
      next marked =>
          rcases Option.bind_eq_some_iff.1 named with
            ⟨body, stored, parsed⟩
          rcases Option.bind_eq_some_iff.1 parsed with
            ⟨tombstone, -, packs⟩
          exact ⟨by rw [stored]; rfl, Or.inl ⟨marked, tombstone, packs⟩⟩
      next =>
          split at named
          next marked =>
              rcases Option.bind_eq_some_iff.1 named with
                ⟨body, stored, parsed⟩
              rcases Option.bind_eq_some_iff.1 parsed with
                ⟨tombstone, -, bundle⟩
              exact
                ⟨by rw [stored]; rfl,
                  Or.inr ⟨marked, tombstone, bundle⟩⟩
          next => cases named
  next => cases named

/-- Packs, indexes and bundles are removed beside a tombstone. -/
theorem target_cases
    {world : World}
    {order key : Text}
    {list : List Text}
    (named : targets bucketPrefix opts world order = some list)
    (member : key ∈ list) :
    (∃ sha,
        key = packKey bucketPrefix sha ∨
          key = packIdxKey bucketPrefix sha) ∨
      ∃ refName sha, key = bundleKey bucketPrefix refName sha := by
  rcases (targets_cases named).2.2 with
    ⟨-, tombstone, packs⟩ | ⟨-, tombstone, bundle⟩
  · left
    unfold packTargets at packs
    split at packs
    · split at packs
      · split at packs
        · cases packs
          cases member
        · cases packs
      · cases packs
        rcases List.mem_flatMap.1 member with ⟨sha, -, own⟩
        exact ⟨sha, by simpa using own⟩
    · cases packs
  · right
    unfold baselineTargets at bundle
    split at bundle
    · rcases Option.bind_eq_some_iff.1 bundle with
        ⟨refName, -, decided⟩
      split at decided
      · cases decided
      · split at decided
        · cases decided
          cases member
        · cases decided
          exact ⟨refName, _, List.mem_singleton.1 member⟩
    · cases bundle

omit [Platform] in
theorem getLast?_of_json
    {key : Text}
    (json : lit ".json" <:+ key) :
    key.getLast? = some 'n' := by
  rcases json with ⟨rest, rfl⟩
  simp [lit_eq]

/-- What is removed beside a tombstone is no tombstone and no chain. -/
theorem not_json_of_target
    {world : World}
    {order key : Text}
    {list : List Text}
    (named : targets bucketPrefix opts world order = some list)
    (member : key ∈ list) :
    ¬ lit ".json" <:+ key := by
  intro json
  have last := getLast?_of_json json
  rcases target_cases named member with
    ⟨sha, rfl | rfl⟩ | ⟨refName, sha, rfl⟩
  · simp [packKey, join_eq, lit_eq, List.getLast?_cons] at last
  · simp [packIdxKey, join_eq, lit_eq, List.getLast?_cons] at last
  · simp [bundleKey, join_eq, lit_eq, List.getLast?_cons] at last

/-- Orders lie under `gc/`. -/
theorem gcListingPrefix_of_order
    {world : World}
    {order : Text}
    {list : List Text}
    (named : targets bucketPrefix opts world order = some list) :
    gcListingPrefix (prefixText bucketPrefix) <+: order := by
  rcases (targets_cases named).2.2 with ⟨marked, -⟩ | ⟨marked, -⟩
  · rw [isTombstoneKey, List.isPrefixOf_iff_prefix, join_eq] at marked
    rw [gcListingPrefix, join_eq]
    refine List.IsPrefix.trans ?_ marked
    exact (List.prefix_append_right_inj _).2
      ⟨lit "tombstones-", by simp [lit_eq]⟩
  · exact gcListingPrefix_of_isBaselineTombstoneKey marked

omit [Platform] in
/-- A key under `gc/` is not under `refs/`. -/
theorem not_refs_of_gc
    {key : Text}
    (inGc : gcListingPrefix (prefixText bucketPrefix) <+: key) :
    ¬ join bucketPrefix (lit "refs/") <+: key := by
  intro inRefs
  rw [gcListingPrefix, join_some_prefixText, join_eq] at inGc
  rw [join_eq] at inRefs
  have shorter :
      keyRoot bucketPrefix ++ lit "gc/" <+:
        keyRoot bucketPrefix ++ lit "refs/" :=
    List.prefix_of_prefix_length_le inGc inRefs
      (by simp [lit_eq])
  rw [List.prefix_append_right_inj] at shorter
  revert shorter
  decide +kernel

variable (bucketPrefix opts)

/-- The tombstones of a world, as orders. -/
def orders (world : World) : WorkOrders Text where
  targets := targets bucketPrefix opts world
  apart := by
    intro order list named key member
    unfold targets
    exact if_neg (not_json_of_target named member)

/-! ## A world while sweeps are under way -/

/-- A world some sweeps have acted on, beside the one they found. -/
structure Underway (start world : World) : Prop where
  progress :
    (orders bucketPrefix opts start).Progress start.get? world.get?
  scanned :
    scannedChains bucketPrefix world = scannedChains bucketPrefix start
  clock : world.clock = start.clock

/-- Some baseline tombstone is about the reference. -/
def Superseded (world : World) (refName : RefName) : Prop :=
  ∃ key record,
    lit ".json" <:+ key ∧
      isBaselineTombstoneKey key (prefixText bucketPrefix) = true ∧
      world.body? key = some (.baselineTombstone record) ∧
      record.refName = refName.text

/-- The chains that a sweep looks up for its tombstones are the same. -/
def ChainsKept (before after : World) : Prop :=
  ∀ refName : RefName,
    Superseded bucketPrefix before refName →
      after.get? (chainKey bucketPrefix refName) =
        before.get? (chainKey bucketPrefix refName)

variable {bucketPrefix opts}
variable {start world : World}

theorem underway_start : Underway bucketPrefix opts start start where
  progress := by
    apply WorkOrders.progress_start
    intro order list named absent
    have present := (targets_cases named).2.1
    rw [World.body?, absent] at present
    cases present
  scanned := rfl
  clock := rfl

omit [Platform] in
theorem scannedChains_remove
    {key : Text}
    (aside :
      ¬ (isChainJsonKey key = true ∧
        join bucketPrefix (lit "refs/") <+: key))
    (world : World) :
    scannedChains bucketPrefix (world.remove key) =
      scannedChains bucketPrefix world := by
  unfold scannedChains World.listing World.remove
  simp only [List.filter_map, List.filter_filter, Function.comp_apply]
  congr 1
  apply
    Bundle.filter_kerase
      fun key =>
        isChainJsonKey key &&
          (join bucketPrefix (lit "refs/")).isPrefixOf key
  rw [Bool.and_eq_false_imp]
  intro chain
  rw [Bool.eq_false_iff, ne_eq, List.isPrefixOf_iff_prefix]
  exact fun inRefs => aside ⟨chain, inRefs⟩

omit [Platform] in
theorem json_of_isChainJsonKey
    {key : Text}
    (chain : isChainJsonKey key = true) :
    lit ".json" <:+ key := by
  rw [isChainJsonKey, List.isSuffixOf_iff_suffix] at chain
  exact
    List.IsSuffix.trans ⟨lit "/chain", by simp [lit_eq]⟩ chain

/-- The chains the collector reads are neither tombstones nor removed. -/
theorem not_doomed_of_chain
    {key : Text}
    (chain : isChainJsonKey key = true)
    (inRefs : join bucketPrefix (lit "refs/") <+: key) :
    ¬ (orders bucketPrefix opts start).Doomed key := by
  rintro ⟨order, list, named, rfl | member⟩
  · exact not_refs_of_gc (gcListingPrefix_of_order named) inRefs
  · exact not_json_of_target named member (json_of_isChainJsonKey chain)

/-- A removal that is ordered leaves the chains alone. -/
theorem Underway.remove
    (underway : Underway bucketPrefix opts start world)
    {key : Text}
    (progress :
      (orders bucketPrefix opts start).Progress start.get?
        (world.remove key).get?)
    (doomed : (orders bucketPrefix opts start).Doomed key) :
    Underway bucketPrefix opts start (world.remove key) where
  progress := progress
  scanned := by
    rw [scannedChains_remove _ world, underway.scanned]
    exact fun chain => not_doomed_of_chain chain.1 chain.2 doomed
  clock := underway.clock

theorem Underway.removeTarget
    (underway : Underway bucketPrefix opts start world)
    {order key : Text}
    {list : List Text}
    (named : targets bucketPrefix opts start order = some list)
    (member : key ∈ list) :
    Underway bucketPrefix opts start (world.remove key) :=
  underway.remove
    (underway.progress.removeTarget (world.get?_remove key) named member)
    ⟨order, list, named, Or.inr member⟩

theorem Underway.removeOrder
    (underway : Underway bucketPrefix opts start world)
    {order : Text}
    {list : List Text}
    (named : targets bucketPrefix opts start order = some list)
    (emptied : ∀ key ∈ list, world.get? key = none) :
    Underway bucketPrefix opts start (world.remove order) :=
  underway.remove
    (underway.progress.removeOrder (world.get?_remove order) named emptied)
    ⟨order, list, named, Or.inl rfl⟩

/-- The collector finds every chain as it was. -/
theorem Underway.body?_of_scanned
    (underway : Underway bucketPrefix opts start world)
    {entry : ObjectMeta}
    (scanned : entry ∈ scannedChains bucketPrefix start) :
    world.body? entry.key = start.body? entry.key := by
  rcases List.mem_filter.1 scanned with ⟨listed, chain⟩
  unfold World.body?
  rw [underway.progress.eq_of_not_doomed
    (not_doomed_of_chain chain (World.mem_listing.1 listed).1)]

/-! ## One sweep among others -/

/-- What is absent stays absent. -/
def OnlyRemoved (before after : World) : Prop :=
  ∀ key, before.get? key = none → after.get? key = none

variable (bucketPrefix opts)

/-- The others sweep as well, and every call finds the chains as they were. -/
def sweeping (start : World) : Contract Call World where
  rely := OnlyRemoved
  invariant := Underway bucketPrefix opts start
  met := fun _ world => ChainsKept bucketPrefix start world
  guarantee := OnlyRemoved
  rely_refl := fun _ _ absent => absent
  rely_trans := fun _ _ _ first second key absent =>
    second key (first key absent)

variable {bucketPrefix opts}

/-- A call that only reads. -/
theorem safe_read
    {ε α : Type}
    {post : Except ε α → World → Prop}
    {request : Call}
    {next : Reply request → Program ε α}
    (reads : ∀ world, (answer request world).2 = world)
    (resume :
      ∀ later,
        OnlyRemoved world later →
          Underway bucketPrefix opts start later →
            ChainsKept bucketPrefix start later →
              Safe (sweeping bucketPrefix opts start) answer post
                (next (answer request later).1) later) :
    Safe (sweeping bucketPrefix opts start) answer post
      (.call request next) world := by
  intro later changed underway kept
  have unmoved := reads later
  constructor
  · rw [unmoved]
    exact ⟨underway, fun _ absent => absent⟩
  · have resumed := resume later changed underway kept
    rw [unmoved]
    exact resumed

theorem answer_get (key : Text) (world : World) :
    (answer (.get key) world).2 = world := by
  simp only [answer]
  split <;> rfl

theorem safe_loadChain
    {refName : RefName}
    (superseded : Superseded bucketPrefix start refName) :
    Safe (sweeping bucketPrefix opts start) answer
      (fun outcome _ =>
        outcome =
          loadedChain (start.body? (chainKey bucketPrefix refName)))
      (loadChain (prefixOpt (prefixText bucketPrefix)) refName) world := by
  apply safe_read (answer_get _)
  intro later _ _ kept
  have sameKey :
      chainKey (prefixOpt (prefixText bucketPrefix)) refName =
        chainKey bucketPrefix refName := by
    simp [chainKey, join_eq]
  have same :
      start.body? (chainKey bucketPrefix refName) =
        (later.get? (chainKey bucketPrefix refName)).map Object.body := by
    unfold World.body?
    rw [kept refName superseded]
  rw [same]
  simp only [answer, sameKey]
  cases later.get? (chainKey bucketPrefix refName) with
  | none => exact fun _ _ _ => rfl
  | some object =>
      simp only [Option.map_some, loadedChain]
      cases parsed : ChainManifest.fromJsonBytes object.body with
      | ok manifest =>
          simp only [Prog.ofExcept, Prog.attempt, Prog.bind, parsed]
          exact fun _ _ _ => rfl
      | error error =>
          simp only [Prog.ofExcept, Prog.attempt, Prog.bind, parsed]
          exact fun _ _ _ => rfl

theorem safe_listReferencedPacks (completion : Completion) :
    Safe (sweeping bucketPrefix opts start) answer
      (fun outcome _ =>
        outcome = referencedPacks completion bucketPrefix start)
      (listReferencedPacks completion (prefixText bucketPrefix)) world := by
  apply safe_read (fun _ => rfl)
  intro later _ underway _
  have entries :
      (later.listing
            (join (some (prefixText bucketPrefix)) (lit "refs/"))).filter
          (fun entry => isChainJsonKey entry.key) =
        scannedChains bucketPrefix start := by
    rw [join_some_prefixText]
    exact underway.scanned
  show
    Safe _ _ _
      (foldEach _ []
        (completion.arrange
          ((later.listing
              (join (some (prefixText bucketPrefix)) (lit "refs/"))).filter
            fun entry => isChainJsonKey entry.key)))
      later
  rw [entries]
  apply safe_foldEach_known
  intro shas entry arranged world
  have scanned := Completion.mem_arrange.1 arranged
  apply safe_read (answer_get _)
  intro later _ underway _
  have same := underway.body?_of_scanned scanned
  unfold scanChain
  rw [← same, World.body?]
  simp only [answer]
  cases later.get? entry.key with
  | none => exact fun _ _ _ => rfl
  | some object =>
      simp only [Option.map_some]
      cases parsed : ChainManifest.fromJsonBytes object.body with
      | error error =>
          simp only [Prog.ofExcept, Prog.mapError, Prog.bind, parsed]
          exact fun _ _ _ => rfl
      | ok chain =>
          simp only [Prog.ofExcept, Prog.mapError, Prog.bind, parsed]
          exact safe_ofExcept fun _ _ _ => rfl

theorem safe_graceCheck (markedAt : Option Int) :
    Safe (sweeping bucketPrefix opts start) answer
      (okOr (due opts start.clock markedAt = false) fun decision _ =>
        decision =
          if due opts start.clock markedAt then .past else .within)
      (graceCheck opts markedAt) world := by
  unfold graceCheck due
  by_cases forced : opts.force = true
  · simp only [forced, if_true, Bool.true_or]
    exact fun _ _ _ => rfl
  · simp only [forced, Bool.false_eq_true, if_false, Bool.false_or]
    cases markedAt with
    | none => exact fun _ _ _ => rfl
    | some marked =>
        apply safe_read (fun _ => rfl)
        intro later _ underway _
        have clock : (answer .nowUtc later).1 = start.clock :=
          underway.clock
        rw [clock]
        intro last _ _
        simp only [okOr, Option.any_some, decide_eq_true_eq]
        cases decided : graceDecision (start.clock - marked) opts.graceHours with
        | within => rfl
        | past => rfl

/-- A key that may be removed is gone when its deletion is through. -/
theorem safe_deleteCounted
    {failed : Prop}
    {key : Text}
    (removable :
      ∀ later,
        OnlyRemoved world later →
          Underway bucketPrefix opts start later →
            Underway bucketPrefix opts start (later.remove key)) :
    Safe (sweeping bucketPrefix opts start) answer
      (okOr failed fun _ later => later.get? key = none)
      (deleteCounted key) world := by
  intro later changed underway _
  have removed : (answer (.delete key) later).2 = later.remove key := by
    simp only [answer]
    cases found : later.get? key with
    | none => exact (later.remove_of_absent key found).symm
    | some object => rfl
  have gone (last : World) :
      OnlyRemoved (answer (.delete key) later).2 last →
        last.get? key = none := by
    rw [removed]
    exact fun more => more key (later.get?_remove_self key)
  constructor
  · rw [removed]
    constructor
    · exact removable later changed underway
    · intro other absent
      rw [World.get?_remove, absent, ite_self]
  · have replied :
        (answer (.delete key) later).1 = .ok () ∨
          (answer (.delete key) later).1 = .error (.notFound key) := by
      simp only [answer]
      cases later.get? key with
      | none => exact Or.inr rfl
      | some object => exact Or.inl rfl
    rcases replied with same | same
    · rw [same]
      exact fun last more _ => gone last more
    · rw [same]
      exact fun last more _ => gone last more

variable (bucketPrefix opts) in
/-- The object at a key is no order, or it is gone. -/
def Applied (start : World) (key : Text) (world : World) : Prop :=
  targets bucketPrefix opts start key ≠ none → world.get? key = none

/-- A tombstone is found as it was, or another sweep has applied it. -/
theorem safe_readTombstone {ε : Type} (key : Text) :
    Safe (sweeping bucketPrefix opts start) answer
      (okOr False fun reply later =>
        (∃ body, reply = .ok body ∧ start.body? key = some body) ∨
          reply = .error (.notFound key) ∧ later.get? key = none)
      ((Store.getBytes key).attempt :
        Program ε (Except ObjectStoreError Body))
      world := by
  apply safe_read (answer_get key)
  intro found _ underway _
  simp only [answer]
  cases stored : found.get? key with
  | none =>
      intro last changed _
      exact Or.inr ⟨rfl, changed key stored⟩
  | some object =>
      have original : start.body? key = some object.body := by
        have same := underway.progress.eq_start (by rw [stored]; simp)
        rw [World.body?, ← same, stored]
        rfl
      intro last _ _
      exact Or.inl ⟨object.body, rfl, original⟩

section PackTombstone

variable
    {key : Text}
    {tombstone : Tombstone}

/-- What one turn of the loop over a tombstone's packs settles. -/
def PackSettled
    (bucketPrefix : Option Text)
    (start world : World)
    (sha : Sha40) : Prop :=
  ∃ referenced,
    referencedPacks .inOrder bucketPrefix start = .ok referenced ∧
      (sha ∉ referenced →
        world.get? (packKey bucketPrefix sha) = none ∧
          world.get? (packIdxKey bucketPrefix sha) = none)

omit [Platform] in
theorem PackSettled.later
    {sha : Sha40}
    {later : World}
    (settled : PackSettled bucketPrefix start world sha)
    (changed : OnlyRemoved world later) :
    PackSettled bucketPrefix start later sha := by
  rcases settled with ⟨referenced, read, gone⟩
  refine ⟨referenced, read, fun absent => ?_⟩
  exact
    ⟨changed _ (gone absent).1, changed _ (gone absent).2⟩

theorem safe_sweepOnePack
    (scan : Sha40 → Completion)
    (counts : Nat × Nat)
    {sha : Sha40}
    (past : due opts start.clock tombstone.markedAt = true)
    (ordered :
      targets bucketPrefix opts start key =
        packTargets bucketPrefix opts start tombstone)
    (member : sha ∈ tombstone.orphanPacks) :
    Safe (sweeping bucketPrefix opts start) answer
      (okOr (targets bucketPrefix opts start key = none) fun _ later =>
        PackSettled bucketPrefix start later sha)
      (sweepOnePack scan (prefixText bucketPrefix) counts sha) world := by
  unfold sweepOnePack
  apply (safe_listReferencedPacks (scan sha)).bind
  case stop =>
      intro error later _ told
      show targets bucketPrefix opts start key = none
      rw [ordered, packTargets, if_pos past]
      cases read : referencedPacks .inOrder bucketPrefix start with
      | error other => exact if_neg (List.ne_nil_of_mem member)
      | ok referenced =>
          rcases referencedPacks_alike read (scan sha) with ⟨others, also, -⟩
          cases told.trans also
  intro arrived later _ told
  rcases referencedPacks_alike told.symm .inOrder with
    ⟨referenced, read, alike⟩
  split
  next named =>
      intro last _ _
      refine ⟨referenced, read, fun absent => ?_⟩
      exact absurd ((alike sha).2 (by simpa using named)) absent
  next fresh =>
      have unnamed : sha ∉ referenced := by
        rw [alike]
        simpa using fresh
      have named :
          targets bucketPrefix opts start key =
            some
              ((tombstone.orphanPacks.filter fun sha =>
                  !referenced.contains sha).flatMap
                fun sha =>
                  [packKey bucketPrefix sha,
                    packIdxKey bucketPrefix sha]) := by
        rw [ordered, packTargets, if_pos past, read]
      have inList
          (target : Text)
          (own :
            target ∈
              [packKey bucketPrefix sha, packIdxKey bucketPrefix sha]) :
          target ∈
            (tombstone.orphanPacks.filter fun sha =>
                !referenced.contains sha).flatMap
              fun sha =>
                [packKey bucketPrefix sha,
                  packIdxKey bucketPrefix sha] :=
        List.mem_flatMap.2
          ⟨sha, List.mem_filter.2 ⟨member, by simpa using unnamed⟩, own⟩
      have packName :
          packKey (some (prefixText bucketPrefix)) sha =
            packKey bucketPrefix sha :=
        join_some_prefixText _
      have idxName :
          packIdxKey (some (prefixText bucketPrefix)) sha =
            packIdxKey bucketPrefix sha :=
        join_some_prefixText _
      rw [packName, idxName]
      apply
        (safe_deleteCounted fun _ _ underway =>
          underway.removeTarget named (inList _ (by simp))).thenOr
      intro pack packless _ packGone
      have idx :
          Safe (sweeping bucketPrefix opts start) answer
            (okOr (targets bucketPrefix opts start key = none)
              fun _ later =>
                later.get? (packIdxKey bucketPrefix sha) = none)
            (deleteCounted (packIdxKey bucketPrefix sha)) packless :=
        safe_deleteCounted fun _ _ underway =>
          underway.removeTarget named (inList _ (by simp))
      have stable
          (world later : World)
          (changed : OnlyRemoved world later)
          (gone : world.get? (packKey bucketPrefix sha) = none) :
          later.get? (packKey bucketPrefix sha) = none :=
        changed _ gone
      apply (idx.framing stable stable packGone).bind
      · intro deleted both _ gone last changed _
        exact
          ⟨referenced, read, fun _ =>
            ⟨changed _ gone.2, changed _ gone.1⟩⟩
      · exact fun _ _ _ gone => gone.1

omit [Platform] in
/-- Once every pack is settled, what the tombstone removes is gone. -/
theorem emptied_of_settled
    (past : due opts start.clock tombstone.markedAt = true)
    (settled :
      ∀ sha ∈ tombstone.orphanPacks,
        PackSettled bucketPrefix start world sha) :
    ∃ list,
      packTargets bucketPrefix opts start tombstone = some list ∧
        ∀ target ∈ list, world.get? target = none := by
  unfold packTargets
  rw [if_pos past]
  cases read : referencedPacks .inOrder bucketPrefix start with
  | error error =>
      have nothing : tombstone.orphanPacks = [] := by
        apply List.eq_nil_iff_forall_not_mem.2
        intro sha member
        rcases settled sha member with ⟨referenced, other, -⟩
        rw [read] at other
        cases other
      exact ⟨[], if_pos nothing, by simp⟩
  | ok referenced =>
      refine ⟨_, rfl, ?_⟩
      intro target member
      rcases List.mem_flatMap.1 member with ⟨sha, kept, own⟩
      rcases List.mem_filter.1 kept with ⟨orphan, unnamed⟩
      rcases settled sha orphan with ⟨_, same, gone⟩
      rw [read] at same
      cases same
      have both := gone (by simpa using unnamed)
      simp only [List.mem_cons, List.not_mem_nil, or_false] at own
      rcases own with rfl | rfl
      · exact both.1
      · exact both.2

theorem safe_sweepPacks
    (scan : Sha40 → Completion)
    (past : due opts start.clock tombstone.markedAt = true)
    (ordered :
      targets bucketPrefix opts start key =
        packTargets bucketPrefix opts start tombstone) :
    Safe (sweeping bucketPrefix opts start) answer
      (okOr (targets bucketPrefix opts start key = none) fun _ later =>
        ∀ sha ∈ tombstone.orphanPacks,
          PackSettled bucketPrefix start later sha)
      (foldEach (sweepOnePack scan (prefixText bucketPrefix)) (0, 0)
        tombstone.orphanPacks)
      world := by
  -- every pack of the tombstone is either still to come or settled
  have whole :=
    @safe_foldEach_or _ _ _ _ _ _
      (sweeping bucketPrefix opts start) answer
      (targets bucketPrefix opts start key = none)
      (sweepOnePack scan (prefixText bucketPrefix))
      (fun _ remaining later =>
        remaining ⊆ tombstone.orphanPacks ∧
          ∀ sha ∈ tombstone.orphanPacks,
            sha ∈ remaining ∨ PackSettled bucketPrefix start later sha)
      (fun _ _ _ _ changed loop =>
        ⟨loop.1, fun sha member =>
          (loop.2 sha member).imp_right fun settled =>
            settled.later changed⟩)
      ?_ (0, 0) tombstone.orphanPacks world
      ⟨fun _ member => member, fun _ member => Or.inl member⟩
  · apply whole.weaken
    intro outcome later _ known
    cases outcome with
    | error error => exact known
    | ok counts =>
        intro sha member
        exact (known.2 sha member).resolve_left List.not_mem_nil
  · rintro counts sha remaining state - ⟨inside, loop⟩
    have orphan := inside List.mem_cons_self
    have stable
        (state later : World)
        (changed : OnlyRemoved state later)
        (known :
          ∀ other ∈ tombstone.orphanPacks,
            other ∈ sha :: remaining ∨
              PackSettled bucketPrefix start state other) :
        ∀ other ∈ tombstone.orphanPacks,
          other ∈ sha :: remaining ∨
            PackSettled bucketPrefix start later other :=
      fun other member =>
        (known other member).imp_right fun settled =>
          settled.later changed
    apply
      ((safe_sweepOnePack scan counts past ordered orphan).framing stable
        stable loop).weaken
    intro outcome later _ known
    cases outcome with
    | error error => exact known.1
    | ok next =>
        refine ⟨fun _ member => inside (List.mem_cons_of_mem _ member), ?_⟩
        intro other member
        rcases known.2 other member with waiting | settled
        · rcases List.mem_cons.1 waiting with rfl | waiting
          · exact Or.inr known.1
          · exact Or.inl waiting
        · exact Or.inr settled

/-- A tombstone that has emptied its list is removed. -/
theorem safe_deleteOrder
    {list : List Text}
    (named : targets bucketPrefix opts start key = some list)
    (emptied : ∀ target ∈ list, world.get? target = none) :
    Safe (sweeping bucketPrefix opts start) answer
      (okOr (targets bucketPrefix opts start key = none) fun _ later =>
        later.get? key = none)
      (deleteCounted key) world :=
  safe_deleteCounted fun _ changed underway =>
    underway.removeOrder named fun target member =>
      changed target (emptied target member)

theorem safe_sweepOneTombstone
    (scan : Sha40 → Completion)
    (json : lit ".json" <:+ key)
    (marked : isTombstoneKey key (prefixText bucketPrefix) = true) :
    Safe (sweeping bucketPrefix opts start) answer
      (okOr (targets bucketPrefix opts start key = none) fun _ later =>
        Applied bucketPrefix opts start key later)
      (sweepOneTombstone scan (prefixText bucketPrefix) key opts)
      world := by
  unfold sweepOneTombstone
  apply (safe_readTombstone key).bind
  case stop => exact fun _ _ _ impossible => impossible.elim
  rintro reply found - (⟨body, rfl, stored⟩ | ⟨rfl, gone⟩)
  case inr => exact fun last changed _ _ => changed key gone
  apply Safe.checkOr
  case stop =>
      intro error parsed
      simp [targets, json, marked, stored, parsed, Except.toOption]
  intro tombstone parsed
  have ordered :
      targets bucketPrefix opts start key =
        packTargets bucketPrefix opts start tombstone := by
    simp [targets, json, marked, stored, parsed, Except.toOption]
  have early
      (soon : due opts start.clock tombstone.markedAt = false) :
      targets bucketPrefix opts start key = none := by
    rw [ordered, packTargets, soon]
    rfl
  apply (safe_graceCheck tombstone.markedAt).bind
  case stop => exact fun error later _ soon => early soon
  intro decision checked _ decided
  cases past : due opts start.clock tombstone.markedAt with
  | false =>
      rw [past] at decided
      cases decided
      exact fun _ _ _ acts => absurd (early past) acts
  | true =>
      rw [past] at decided
      cases decided
      apply (safe_sweepPacks scan past ordered).thenOr
      intro counts swept _ settled
      rcases emptied_of_settled past settled with ⟨list, named, emptied⟩
      apply (safe_deleteOrder (ordered.trans named) emptied).thenOr
      exact fun _ _ _ gone last changed _ _ => changed key gone

end PackTombstone

section BaselineTombstone

variable {key : Text}

theorem safe_sweepOneBaselineTombstone
    (json : lit ".json" <:+ key)
    (unmarked : isTombstoneKey key (prefixText bucketPrefix) = false)
    (marked :
      isBaselineTombstoneKey key (prefixText bucketPrefix) = true) :
    Safe (sweeping bucketPrefix opts start) answer
      (okOr (targets bucketPrefix opts start key = none) fun _ later =>
        Applied bucketPrefix opts start key later)
      (sweepOneBaselineTombstone (prefixText bucketPrefix) key opts)
      world := by
  unfold sweepOneBaselineTombstone
  apply (safe_readTombstone key).bind
  case stop => exact fun _ _ _ impossible => impossible.elim
  rintro reply found - (⟨body, rfl, stored⟩ | ⟨rfl, gone⟩)
  case inr => exact fun last changed _ _ => changed key gone
  apply Safe.checkOr
  case stop =>
      intro error parsed
      simp [targets, json, unmarked, marked, stored, parsed,
        Except.toOption]
  intro tombstone parsed
  have ordered :
      targets bucketPrefix opts start key =
        baselineTargets bucketPrefix opts start tombstone := by
    simp [targets, json, unmarked, marked, stored, parsed,
      Except.toOption]
  have early
      (soon : due opts start.clock tombstone.markedAt = false) :
      targets bucketPrefix opts start key = none := by
    rw [ordered, baselineTargets, soon]
    rfl
  apply (safe_graceCheck tombstone.markedAt).bind
  case stop => exact fun error later _ soon => early soon
  intro decision checked _ decided
  cases past : due opts start.clock tombstone.markedAt with
  | false =>
      rw [past] at decided
      cases decided
      exact fun _ _ _ acts => absurd (early past) acts
  | true =>
      rw [past] at decided
      cases decided
      rw [baselineTargets, if_pos past] at ordered
      simp only
      cases reference : RefName.new tombstone.refName with
      | none =>
          rw [reference] at ordered
          exact fun _ _ _ acts => absurd ordered acts
      | some refName =>
          have superseded : Superseded bucketPrefix start refName :=
            ⟨key, tombstone, json, marked,
              by rw [stored, (BaselineTombstone.fromJsonBytes_ok.1 parsed).1],
              (RefName.text_of_new reference).symm⟩
          rw [reference, Option.bind_some] at ordered
          simp only
          apply (safe_loadChain superseded).bind
          case stop =>
              intro error later _ told
              rw [← told] at ordered
              exact ordered
          intro chain loaded _ told
          rw [← told] at ordered
          simp only at ordered
          split
          next live =>
              rw [if_pos live] at ordered
              apply (safe_deleteOrder ordered (by simp)).thenOr
              exact fun _ _ _ gone last changed _ _ => changed key gone
          next stale =>
              rw [if_neg stale] at ordered
              apply (safe_loadChain superseded).bind
              case stop =>
                  intro error later _ again
                  rw [← told] at again
                  cases again
              intro recheck reloaded _ again
              rw [← told] at again
              cases again
              rw [if_neg stale]
              have bundleName :
                  bundleKey (prefixOpt (prefixText bucketPrefix)) refName
                      tombstone.sha =
                    bundleKey bucketPrefix refName tombstone.sha := by
                simp [bundleKey, join_eq]
              rw [bundleName]
              apply
                (safe_deleteCounted fun _ _ underway =>
                  underway.removeTarget ordered
                    List.mem_cons_self).thenOr
              intro deleted bundleless _ bundleGone
              apply
                (safe_deleteOrder ordered (by simpa using bundleGone)).thenOr
              exact fun _ _ _ gone last changed _ _ => changed key gone

end BaselineTombstone

theorem Applied.later
    {key : Text}
    {later : World}
    (applied : Applied bucketPrefix opts start key world)
    (changed : OnlyRemoved world later) :
    Applied bucketPrefix opts start key later :=
  fun acts => changed key (applied acts)

/-- After its turn, a listed object is no order or it is gone. -/
theorem safe_sweepEntry
    (scans : Scans)
    (outcome : SweepOutcome)
    (entry : ObjectMeta) :
    Safe (sweeping bucketPrefix opts start) answer
      (okOr False fun _ later =>
        Applied bucketPrefix opts start entry.key later)
      (sweepEntry scans (prefixText bucketPrefix) opts outcome entry)
      world := by
  have applied
      (step : Except PackchainError SweepStep)
      (later : World)
      (known :
        okOr (targets bucketPrefix opts start entry.key = none)
          (fun _ later => Applied bucketPrefix opts start entry.key later)
          step later) :
      Applied bucketPrefix opts start entry.key later := by
    cases step with
    | ok step => exact known
    | error error => exact fun acts => absurd known acts
  unfold sweepEntry
  split
  next notJson =>
      intro last _ _ acts
      exact absurd (if_neg notJson) acts
  next json =>
      rw [not_not] at json
      split
      next marked =>
          apply
            (safe_sweepOneTombstone (scans entry.key) json
              marked).attemptOr.thenOr
          intro step later _ known last changed _
          exact (applied step later known).later changed
      next unmarked =>
          rw [Bool.not_eq_true] at unmarked
          split
          next marked =>
              apply
                (safe_sweepOneBaselineTombstone json unmarked
                  marked).attemptOr.thenOr
              intro step later _ known last changed _
              exact (applied step later known).later changed
          next neither =>
              intro last _ _ acts
              apply absurd _ acts
              simp [targets, unmarked, neither]

/-- A sweep does not fail, and in the end no order is left. -/
theorem safe_sweep (scans : Scans) :
    Safe (sweeping bucketPrefix opts start) answer
      (okOr False fun _ later =>
        (orders bucketPrefix opts start).Finished later.get?)
      (sweep scans (prefixText bucketPrefix) opts) world := by
  apply safe_read (fun _ => rfl)
  intro listed _ underway _
  have whole :=
    @safe_foldEach_or _ _ _ _ _ _
      (sweeping bucketPrefix opts start) answer False
      (sweepEntry scans (prefixText bucketPrefix) opts)
      (fun _ remaining later =>
        ∀ order list,
          targets bucketPrefix opts start order = some list →
            later.get? order = none ∨
              ∃ entry ∈ remaining, entry.key = order)
      (fun _ _ _ _ changed loop order list named =>
        (loop order list named).imp_left fun gone => changed order gone)
      ?_ ⟨0, 0, 0, 0⟩
      (listed.listing (gcListingPrefix (prefixText bucketPrefix))) listed
      ?_
  · apply whole.weaken
    intro outcome later _ known
    cases outcome with
    | error error => exact known
    | ok swept =>
        intro order list named
        rcases known order list named with gone | ⟨entry, member, -⟩
        · exact gone
        · cases member
  · intro counted entry remaining state _ loop
    have stable
        (state later : World)
        (changed : OnlyRemoved state later)
        (known :
          ∀ order list,
            targets bucketPrefix opts start order = some list →
              state.get? order = none ∨
                ∃ other ∈ entry :: remaining, other.key = order) :
        ∀ order list,
          targets bucketPrefix opts start order = some list →
            later.get? order = none ∨
              ∃ other ∈ entry :: remaining, other.key = order :=
      fun order list named =>
        (known order list named).imp_left fun gone => changed order gone
    apply
      ((safe_sweepEntry scans counted entry).framing stable stable
        loop).weaken
    intro outcome later _ known
    cases outcome with
    | error error => exact known.1
    | ok next =>
        intro order list named
        rcases known.2 order list named with
          gone | ⟨other, member, rfl⟩
        · exact Or.inl gone
        · rcases List.mem_cons.1 member with rfl | waiting
          · exact Or.inl (known.1 (by rw [named]; simp))
          · exact Or.inr ⟨other, waiting, rfl⟩
  · intro order list named
    cases found : listed.get? order with
    | none => exact Or.inl rfl
    | some object =>
        exact
          Or.inr
            (World.exists_mem_listing.2
              ⟨gcListingPrefix_of_order named, by rw [found]; rfl⟩)

/-! ## Sweeps that find the chains as they were -/

/-- A sweep reads, and deletes under `gc/` or what is no `.json`. -/
def Clears (bucketPrefix : Option Text) : Call → Prop
  | .delete key =>
      gcListingPrefix (prefixText bucketPrefix) <+: key ∨
        ¬ lit ".json" <:+ key
  | request => request.Reads

theorem issues_sweep_clears (scans : Scans) :
    Issues Call.Credible (Clears bucketPrefix)
      (sweep scans (prefixText bucketPrefix) opts) := by
  apply issues_sweep
  case reads =>
      intro request reads
      cases request with
      | delete key => exact reads.elim
      | _ => exact reads
  case packs =>
      intro sha
      constructor
      · right
        intro json
        have last := getLast?_of_json json
        simp [packKey, join_eq, lit_eq, List.getLast?_cons] at last
      · right
        intro json
        have last := getLast?_of_json json
        simp [packIdxKey, join_eq, lit_eq, List.getLast?_cons] at last
  case bundles =>
      intro refName sha
      right
      intro json
      have last := getLast?_of_json json
      simp [bundleKey, join_eq, lit_eq, List.getLast?_cons] at last
  case tombstones => exact fun key inGc => Or.inl inGc

theorem onlyRemoved_of_clears
    {request : Call}
    (clears : Clears bucketPrefix request)
    (world : World) :
    OnlyRemoved world (answer request world).2 := by
  intro key absent
  cases request with
  | delete target =>
      simp only [answer]
      split
      · rw [World.get?_remove, absent, ite_self]
      · exact absent
  | get target => rw [answer_get, absent]
  | head target =>
      simp only [answer]
      split <;> exact absent
  | list start => exact absent
  | nowUtc => exact absent
  | newUuid => exact absent
  | put target body => exact clears.elim
  | putIfAbsent target body => exact clears.elim

/-- The `chain.json` of a reference under `refs/` survives every sweep. -/
theorem chain_kept_of_underRefs
    {refName : RefName}
    (under : refName.UnderRefs)
    (scans : Scans)
    (start : World) :
    (run answer (sweep scans (prefixText bucketPrefix) opts) start).2.get?
        (chainKey bucketPrefix refName) =
      start.get? (chainKey bucketPrefix refName) := by
  have chain :
      isChainJsonKey (chainKey bucketPrefix refName) = true := by
    rw [chainKey_eq]
    exact isChainJsonKey_chain refName
  have inRefs :
      join bucketPrefix (lit "refs/") <+:
        chainKey bucketPrefix refName := by
    rw [chainKey_eq]
    exact refs_prefix_chain_iff.2 under
  have untouched
      (request : Call)
      (clears : Clears bucketPrefix request) :
      ¬ request.Writes (chainKey bucketPrefix refName) := by
    cases request with
    | delete key =>
        rintro rfl
        rcases clears with inGc | notJson
        · exact not_refs_of_gc inGc inRefs
        · exact notJson (json_of_isChainJsonKey chain)
    | put key body => exact clears.elim
    | putIfAbsent key body => exact clears.elim
    | _ => exact id
  have kept
      (request : Call)
      (state : World)
      (clears : Clears bucketPrefix request)
      (same :
        state.get? (chainKey bucketPrefix refName) =
          start.get? (chainKey bucketPrefix refName)) :
      (answer request state).2.get? (chainKey bucketPrefix refName) =
        start.get? (chainKey bucketPrefix refName) := by
    rw [get?_answer_of_not_writes (untouched request clears), same]
  exact (issues_sweep_clears scans).run credible_answer kept rfl

variable {scans : Scans}

/-- No order is about a `chain.json` that a whole sweep leaves alone. -/
theorem not_doomed_of_kept
    (kept :
      ChainsKept bucketPrefix start
        (run answer (sweep scans (prefixText bucketPrefix) opts) start).2)
    {refName : RefName}
    (superseded : Superseded bucketPrefix start refName) :
    ¬ (orders bucketPrefix opts start).Doomed
      (chainKey bucketPrefix refName) := by
  -- a sweep that met a missing chain would leave it missing
  have missing :=
    @Safe.run_unless _ _ _ _ _ (sweeping bucketPrefix opts start) answer
      _ Call.Credible (Clears bucketPrefix)
      (fun world =>
        ∃ refName : RefName,
          Superseded bucketPrefix start refName ∧
            start.get? (chainKey bucketPrefix refName) ≠ none ∧
            world.get? (chainKey bucketPrefix refName) = none)
      credible_answer
      (by
        rintro request state clears ⟨other, named, there, gone⟩
        exact
          ⟨other, named, there, onlyRemoved_of_clears clears state _ gone⟩)
      (by
        intro request state underway present other named
        rcases underway.progress.kept (chainKey bucketPrefix other) with
          same | ⟨-, gone⟩
        · exact same
        · rw [gone]
          by_contra there
          exact present ⟨other, named, Ne.symm there, gone⟩)
      _ (issues_sweep_clears scans) start (safe_sweep scans)
      underway_start
  rcases missing with ⟨other, named, there, gone⟩ | ⟨underway, ended⟩
  · rw [kept other named] at gone
    exact absurd gone there
  · have finished :
        (orders bucketPrefix opts start).Finished
          (run answer (sweep scans (prefixText bucketPrefix) opts)
            start).2.get? := by
      cases outcome :
          (run answer (sweep scans (prefixText bucketPrefix) opts) start).1 with
      | error error =>
          rw [outcome] at ended
          exact ended.elim
      | ok swept =>
          rw [outcome] at ended
          exact ended
    intro doomed
    have gone := underway.progress.gone finished doomed
    rw [kept refName superseded] at gone
    rcases doomed with ⟨order, list, named, same | member⟩
    · have present := (targets_cases named).2.1
      rw [← same, World.body?, gone] at present
      cases present
    · apply not_json_of_target named member
      rw [chainKey_eq]
      exact json_of_isChainJsonKey (isChainJsonKey_chain refName)

section Confluence

variable
    (kept :
      ChainsKept bucketPrefix start
        (run answer (sweep scans (prefixText bucketPrefix) opts) start).2)

include kept

theorem Underway.chainsKept
    (underway : Underway bucketPrefix opts start world) :
    ChainsKept bucketPrefix start world :=
  fun _ superseded =>
    underway.progress.eq_of_not_doomed (not_doomed_of_kept kept superseded)

/-- A sweep among sweeps, nothing being promised of its calls. -/
theorem safe_sweep_promising (others : Scans) :
    Safe (sweeping bucketPrefix opts start).promising answer
      (okOr False fun _ later =>
        (orders bucketPrefix opts start).Finished later.get?)
      (sweep others (prefixText bucketPrefix) opts) world :=
  (safe_sweep others).promising
    fun _ _ (underway : Underway bucketPrefix opts start _) =>
      underway.chainsKept kept

/-- A sweep run on its own carries out every order. -/
theorem finished_run
    (underway : Underway bucketPrefix opts start world)
    (others : Scans) :
    Underway bucketPrefix opts start
        (run answer (sweep others (prefixText bucketPrefix) opts) world).2 ∧
      (orders bucketPrefix opts start).Finished
        (run answer (sweep others (prefixText bucketPrefix) opts)
          world).2.get? := by
  rcases
    (safe_sweep_promising kept others).run (fun _ _ => trivial) underway
    with ⟨later, ended⟩
  refine ⟨later, ?_⟩
  cases outcome :
      (run answer (sweep others (prefixText bucketPrefix) opts) world).1
    with
  | error error =>
      rw [outcome] at ended
      exact ended.elim
  | ok swept =>
      rw [outcome] at ended
      exact ended

omit kept

variable (bucketPrefix opts) in
/--
Clients that sweep, the clock standing still.  A client whose sweep is over
waits, so that it can be told from one that has not begun.
-/
def sweepers (ι : Type) :
    System ι Scans Call Reply Empty Unit World where
  handler := fun _ => answer
  begin := fun _ world => world
  elapse := fun _ world => world
  prepare := fun scans =>
    (sweep scans (prefixText bucketPrefix) opts).attempt >>= fun _ =>
      .done (some ())
  work := fun _ => .done ()

variable (bucketPrefix opts) in
/-- What sweepers keep to. -/
def sweepDiscipline (ι : Type) (start : World) :
    Discipline ι Scans Call World where
  invariant := Underway bucketPrefix opts start
  met := fun _ _ _ _ => True
  freeRely := fun _ => OnlyRemoved
  heldRely := fun _ => OnlyRemoved
  freeStep := fun _ _ => OnlyRemoved
  heldStep := fun _ _ => OnlyRemoved
  freeRely_refl := fun _ _ _ absent => absent
  freeRely_trans := fun _ _ _ _ first second key absent =>
    second key (first key absent)
  heldRely_refl := fun _ _ _ absent => absent
  heldRely_trans := fun _ _ _ _ first second key absent =>
    second key (first key absent)
  free_of_freeStep := fun _ _ _ _ _ _ step => step
  held_of_freeStep := fun _ _ _ _ _ _ step => step
  free_of_heldStep := fun _ _ _ _ _ _ step => step

include kept

variable {ι : Type}

theorem follows_sweepDiscipline :
    (sweepers bucketPrefix opts ι).Follows
      (sweepDiscipline bucketPrefix opts ι start)
      (fun _ _ _ world =>
        (orders bucketPrefix opts start).Finished world.get?) where
  ready_stable := fun _ _ _ _ _ changed finished order list named =>
    changed order (finished order list named)
  begin := fun _ _ underway =>
    ⟨underway, fun _ _ =>
      ⟨fun _ absent => absent, fun _ absent => absent⟩⟩
  elapse := fun _ _ underway =>
    ⟨underway, fun _ =>
      ⟨fun _ absent => absent, fun _ absent => absent⟩⟩
  prepare := by
    intro client others world underway
    have swept :
        Safe (sweeping bucketPrefix opts start).promising answer
          (okOr False fun outcome later =>
            okOr False
              (fun _ later =>
                (orders bucketPrefix opts start).Finished later.get?)
              outcome later)
          ((sweep others (prefixText bucketPrefix) opts).attempt :
            Program Empty (Except PackchainError SweepOutcome))
          world :=
      (safe_sweep_promising kept others).attemptOr
    apply swept.bind
    · intro outcome later _ ended last changed _ task _ order list named
      cases outcome with
      | error error => exact ended.elim
      | ok counted => exact changed order (ended order list named)
    · exact fun _ _ _ impossible => impossible.elim
  work := fun _ _ _ _ _ _ _ _ _ => trivial

/--
A sweep broken off after any number of calls and run again leaves what one
uninterrupted sweep leaves, and so do sweeps that take turns at single calls,
as soon as one of them is over, in whatever order each reads the chains.
-/
theorem sweep_confluent :
    (∀ first second count,
      (run answer (sweep second (prefixText bucketPrefix) opts)
          (stateAfter answer count
            (sweep first (prefixText bucketPrefix) opts) start)).2.get? =
        (run answer (sweep scans (prefixText bucketPrefix) opts)
          start).2.get?) ∧
      ∀ (ι : Type) [DecidableEq ι]
        (pool : Pool ι Scans Call Reply Empty Unit World),
        (sweepers bucketPrefix opts ι).Reaches
            (fun pool => pool.Meets fun _ _ _ _ => True)
            (.quiet start) pool →
          ∀ client own task,
            pool.phase client = .waiting own task →
              pool.state.get? =
                (run answer (sweep scans (prefixText bucketPrefix) opts)
                  start).2.get? := by
  rcases finished_run kept underway_start scans with ⟨whole, finished⟩
  constructor
  · intro first second count
    have broken :
        Underway bucketPrefix opts start
          (stateAfter answer count
            (sweep first (prefixText bucketPrefix) opts) start) :=
      @Safe.throughout _ _ _ _ _ (sweeping bucketPrefix opts start).promising
        answer _ (fun _ _ => trivial) _ start
        (safe_sweep_promising kept first) underway_start count
    rcases finished_run kept broken second with ⟨again, alike⟩
    exact
      whole.progress.determined finished again.progress alike
  · intro ι _ pool reached client own task settled
    have ok :=
      reached.ok (follows_sweepDiscipline kept) (fun _ _ meets => meets)
        (Pool.ok_quiet underway_start)
    have alike := ok.clients client
    rw [settled] at alike
    exact
      whole.progress.determined finished ok.invariant.progress alike

end Confluence

end Sweeps

/-! ## Tombstones that overlap -/

section Overlapping

attribute [local instance] Platform.simple

/-- An object name of one digit. -/
def repeated (digit : Char) (hex : isLowerHex digit = true) : Sha40 :=
  digitSha digit hex

/-- A tag. -/
def release : RefName :=
  ⟨lit "refs/tags/v1", by decide +kernel⟩

/--
Two pack tombstones name one pack, one of them another pack that a branch and
a tag name as well; a baseline tombstone names a superseded bundle, another
does not parse.
-/
def overlapping : World :=
  let orphan := repeated 'a' (by decide +kernel)
  let named := repeated 'b' (by decide +kernel)
  let baseline := repeated 'c' (by decide +kernel)
  let chain : ChainManifest :=
    ⟨1, named, named, [⟨named, none, packKey none named, 0⟩]⟩
  let world : World := .empty (48 * hour)
  let world := world.put (packKey none orphan) (.file [])
  let world := world.put (packIdxKey none orphan) (.file [])
  let world := world.put (packKey none named) (.file [])
  let world := world.put (bundleKey none .main baseline) (.file [])
  let world := world.put (chainKey none .main) (.chain chain)
  let world := world.put (chainKey none release) (.chain chain)
  let world :=
    world.put (tombstoneKey [] (Platform.uuid 1) (Platform.rfc3339 0))
      (.tombstone ⟨1, (Platform.uuid 1).text, some 0, [orphan]⟩)
  let world :=
    world.put (tombstoneKey [] (Platform.uuid 2) (Platform.rfc3339 0))
      (.tombstone ⟨1, (Platform.uuid 2).text, some 0, [orphan, named]⟩)
  let world :=
    world.put (baselineTombstoneKey [] (Platform.uuid 3))
      (.baselineTombstone ⟨1, some 0, RefName.main.text, baseline⟩)
  world.put (baselineTombstoneKey [] (Platform.uuid 4)) (.text [])

/--
One sweep stops after deleting a pack, and another one goes on, the chains
arriving in the opposite order.
-/
def inTurns : List (CallProgram.Action Nat Scans) :=
  .start 0 .inOrder :: .start 1 .reversed :: Action.calls 1 1 ++
    Action.calls 0 7 ++ Action.calls 1 26 ++ [.settle 1]

theorem sweep_confluent_overlapping :
    (∃ pool,
      (sweepers none ⟨24, false⟩ Nat).schedule?
          (fun pool => pool.Meets fun _ _ _ _ => True)
          inTurns (.quiet overlapping) = some pool ∧
        pool.state.get? =
          (run answer (sweep .inOrder [] ⟨24, false⟩)
            overlapping).2.get?) ∧
      (run answer (sweep .reversed [] ⟨24, false⟩)
          (stateAfter answer 7 (sweep .inOrder [] ⟨24, false⟩)
            overlapping)).2.get? =
        (run answer (sweep .inOrder [] ⟨24, false⟩)
          overlapping).2.get? := by
  have kept :
      ChainsKept none overlapping
        (run answer (sweep .inOrder (prefixText none) ⟨24, false⟩)
          overlapping).2 :=
    fun refName _ =>
      chain_kept_of_underRefs (List.isPrefixOf_iff_prefix.1 refName.valid)
        .inOrder overlapping
  have executed :
      (((sweepers none ⟨24, false⟩ Nat).schedule?
          (fun pool => pool.Meets fun _ _ _ _ => True)
          inTurns (.quiet overlapping)).map
        fun pool => (pool.phase 1).waiting?.isSome) = some true := by
    decide +kernel
  rcases Option.map_eq_some_iff.1 executed with ⟨pool, reached, settled⟩
  rcases Option.isSome_iff_exists.1 settled with ⟨⟨own, task⟩, waiting⟩
  constructor
  · refine ⟨pool, reached, ?_⟩
    exact
      (sweep_confluent kept).2 Nat pool
        (System.Reaches.refl.schedule reached) 1 own task
        (Phase.waiting?_eq_some.1 waiting)
  · exact (sweep_confluent kept).1 .inOrder .reversed 7

end Overlapping

end GitRemoteObjectStore.SweepConfluence
