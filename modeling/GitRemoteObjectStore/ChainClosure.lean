import GitRemoteObjectStore.ChainShape
import GitRemoteObjectStore.PackBuild
import GitRemoteObjectStore.PushedRepository

/-!
# Chains have the closure of their tip

The oldest segment of a chain has a pack of everything its tip reaches, and
each newer one a pack of what its tip reaches beyond the segment below it.
Pushes, forced pushes and compactions keep this, and no operation deletes a
pack, so the packs a stored chain names have everything its tip reaches.
-/

namespace GitRemoteObjectStore.ChainClosure

open CallProgram Prog Packchain Closure ChainShape

/-! ## Layered chains -/

section Chains

variable {objects : Objects} {contents : Contents}

/-- The objects of the pack a segment names. -/
def objectsOf
    (contents : Contents)
    (segment : ChainSegment) : Set Sha :=
  match segmentPackSha segment with
  | .ok name => contents.packed name
  | .error _ => ∅

/-- What each segment's pack has, newest first. -/
inductive Layered
    (objects : Objects)
    (contents : Contents) : List ChainSegment → Prop where
  | baseline
      {segment : ChainSegment}
      (whole : objectsOf contents segment = objects.reach segment.sha) :
      Layered objects contents [segment]
  | incremental
      {newer older : ChainSegment}
      {rest : List ChainSegment}
      (within : objectsOf contents newer ⊆ objects.reach newer.sha)
      (covers :
        objects.reach newer.sha ⊆
          objectsOf contents newer ∪ objects.reach older.sha)
      (layered : Layered objects contents (older :: rest)) :
      Layered objects contents (newer :: older :: rest)

/-- The packs of a layered list have all that its newest tip reaches. -/
theorem Layered.covers
    {segments : List ChainSegment}
    (layered : Layered objects contents segments)
    {newest : ChainSegment}
    (first : segments.head? = some newest)
    {sha : Sha}
    (reached : sha ∈ objects.reach newest.sha) :
    ∃ segment ∈ segments, sha ∈ objectsOf contents segment := by
  induction layered generalizing newest with
  | baseline whole =>
      cases first
      exact ⟨_, List.mem_cons_self, whole ▸ reached⟩
  | incremental within covers layered hypothesis =>
      cases first
      rcases covers reached with fresh | old
      · exact ⟨_, List.mem_cons_self, fresh⟩
      · rcases hypothesis rfl old with ⟨segment, member, inside⟩
        exact ⟨segment, List.mem_cons_of_mem _ member, inside⟩

/-- A chain that is layered down from its tip. -/
structure Complete
    (objects : Objects)
    (contents : Contents)
    (chain : ChainManifest) : Prop where
  newest :
    chain.segments.head?.map ChainSegment.sha = some chain.tip
  layered : Layered objects contents chain.segments

theorem objectsOf_packKey
    {segment : ChainSegment}
    {name : Sha40}
    (same : segment.pack = packKey none name) :
    objectsOf contents segment = contents.packed name := by
  unfold objectsOf segmentPackSha
  rw [same, shaFromPackKey_packKey]

/-- A chain of one segment that has everything. -/
theorem complete_single
    {tip name : Sha40}
    {bytes : Nat}
    (whole : contents.packed name = objects.reach tip) :
    Complete objects contents
      { v := ChainManifest.schemaVersion
        tip := tip
        fullAt := tip
        segments := [⟨tip, none, packKey none name, bytes⟩] } where
  newest := rfl
  layered :=
    .baseline ((objectsOf_packKey rfl).trans whole)

end Chains

/-! ## Truthful repositories -/

section Repositories

variable
    {packer : Packer}
    {objects : Objects}
    {contents : Contents}

/-- An operation in repositories that answer what their databases say. -/
def Truthful
    (packer : Packer)
    (objects : Objects)
    (contents : Contents) : Operation → Prop
  | .push repo _ _ => ∃ odb, RepoOver repo packer objects contents odb
  | .compact scratch _ =>
      ∀ bundle packs repo,
        scratch.install bundle packs = .ok repo →
          ∃ odb, RepoOver repo packer objects contents odb
  | .deleteBranch _ => True

/-- A bundle that can be read and has everything a tip reaches. -/
def BundleHolds
    (objects : Objects)
    (contents : Contents)
    (tip : Sha)
    (bytes : List UInt8) : Prop :=
  ∃ found,
    contents.bundleObjects bytes = some found ∧
      (found : Set Sha) = objects.reach tip

/-- What a prepared push has built on top of a prior tip, if any. -/
structure Brings
    (objects : Objects)
    (contents : Contents)
    (prior : Option Sha)
    (tip : Sha)
    (force : Bool)
    (built : BuiltPack × Option (List UInt8)) : Prop where
  pack :
    ∃ names,
      contents.Holds built.1 names ∧
        names ⊆ objects.reach tip ∧
        (force = true ∨ prior = none → names = objects.reach tip) ∧
        ∀ base, prior = some base →
          objects.reach tip ⊆ names ∪ objects.reach base
  bundle :
    ∀ bytes, built.2 = some bytes →
      BundleHolds objects contents tip bytes

/-- A push brings what its tip reaches beyond the prior one. -/
theorem brings_of_builds
    [Platform]
    (exact : packer.Exact objects contents)
    {repo : LocalRepo}
    {odb : Odb}
    (backed : RepoOver repo packer objects contents odb)
    {spec : PushSpec}
    {prior : Option Sha}
    {found : LocalGit}
    (git : GitReady repo spec.localSpec prior spec.force found)
    {built : BuiltPack × Option (List UInt8)}
    (builds : buildFor repo spec found = .ok built) :
    Brings objects contents prior found.localSha spec.force built := by
  have peels := git.peeled
  rw [backed.peels] at peels
  unfold buildFor at builds
  cases kind : packKindOf spec.force found.priorCommit with
  | baseline =>
      rw [kind] at builds
      simp only [buildPackAndBaseline] at builds
      cases packs : repo.buildBaselinePack found.peeled with
      | error error =>
          rw [packs] at builds
          cases builds
      | ok pack =>
      rw [packs] at builds
      simp only [Bind.bind, Except.bind] at builds
      split at builds
      next bytes bundled =>
          cases builds
          rw [backed.baseline] at packs
          have holds := exact.baseline peels packs
          constructor
          · refine
              ⟨_, holds, subset_rfl, fun _ => rfl, fun base _ => ?_⟩
            exact Set.subset_union_left
          · rintro bytes ⟨⟩
            exact backed.bundles _ _ _ bundled
      · cases builds
  | incremental commit =>
      have based : spec.force = false ∧ found.priorCommit = some commit := by
        unfold packKindOf at kind
        split at kind
        next unforced some =>
            cases kind
            exact ⟨unforced, some⟩
        · cases kind
      rw [kind] at builds
      simp only [buildPackAndBaseline] at builds
      cases prior with
      | none =>
          have none := priorCommitOf_none git.prior
          rw [based.2] at none
          cases none
      | some base =>
      rw [based.1] at git
      rcases priorCommitOf_some git.prior with
        ⟨baseCommit, baseTags, tip, local?, peelsBase, -, same⟩
      rw [based.2] at same
      cases same
      rcases PeeledTip.commit?_eq_some local? with ⟨tags, peeled⟩
      rw [peeled] at builds peels
      simp only at builds
      cases packs : repo.buildIncrementalPack commit tip tags with
      | error error =>
          rw [packs] at builds
          cases builds
      | ok pack =>
          rw [packs] at builds
          cases builds
          rw [backed.incremental] at packs
          rcases exact.incremental peels packs with
            ⟨names, holds, within, covers⟩
          rw [backed.peels] at peelsBase
          have reaches := (peelTagChain_ok peelsBase).reaches
          constructor
          · refine ⟨names, holds, within, ?_, ?_⟩
            · rintro (forced | none)
              · rw [based.1] at forced
                cases forced
              · cases none
            · rintro _ ⟨⟩
              apply covers.trans
              apply Set.union_subset_union_right
              rw [reaches]
              exact Set.subset_union_right
          · rintro bytes ⟨⟩

end Repositories

/-! ## Sourced buckets -/

section Buckets

variable
    [Platform]
    {objects : Objects}
    {contents : Contents}
    {bucketPrefix : Option Text}

/-- A push on top of a complete chain makes a complete chain. -/
theorem complete_committedManifest
    {ready : ReadyState}
    {built : BuiltPack × Option (List UInt8)}
    (named : ready.packContentSha = built.1.contentSha)
    (brings :
      Brings objects contents (ready.prior.map ChainManifest.tip)
        ready.localSha ready.force built)
    (prior :
      ∀ chain, ready.prior = some chain →
        Complete objects contents chain) :
    Complete objects contents (committedManifest ready) := by
  rcases brings.pack with ⟨names, holds, within, whole, covers⟩
  have inside := holds.inside
  rw [← named] at inside
  unfold committedManifest
  by_cases root : ready.force = true ∨ ready.prior = none
  · rw [nextManifest_root _ _ _ _ root]
    apply complete_single
    rw [inside]
    apply whole
    exact root.imp_right fun none => by rw [none]; rfl
  · push Not at root
    rcases root with ⟨unforced, some?⟩
    rcases Option.ne_none_iff_exists'.1 some? with ⟨chain, same⟩
    have complete := prior chain same
    rw [Bool.eq_false_iff.2 unforced, same]
    constructor
    case newest => rfl
    case layered =>
        have newest := complete.newest
        have layered := complete.layered
        simp only [nextManifest]
        cases segments : chain.segments with
        | nil =>
            rw [segments] at newest
            cases newest
        | cons first rest =>
            rw [segments] at newest layered
            have tip : first.sha = chain.tip := Option.some.inj newest
            have fresh :
                objectsOf contents
                    { newSegment ready with
                      parentSha := some chain.tip } =
                  names :=
              (objectsOf_packKey rfl).trans inside
            apply Layered.incremental _ _ layered
            · rw [fresh]
              exact within
            · rw [fresh, tip]
              exact covers chain.tip (by rw [same]; rfl)

/-- What may be stored as the pack of a name. -/
def PackBody (contents : Contents) (name : Sha40) (body : Body) : Prop :=
  body = .file (contents.packNamed name) ∧
    (contents.packObjects (contents.packNamed name)).isSome

/-- What may be stored as the bundle of a tip. -/
def BundleBody
    (objects : Objects)
    (contents : Contents)
    (tip : Sha)
    (body : Body) : Prop :=
  ∃ bytes, body = .file bytes ∧ BundleHolds objects contents tip bytes

/-- The packs a chain names are there. -/
def Supplied
    (bucketPrefix : Option Text)
    (chain : ChainManifest)
    (world : World) : Prop :=
  ∀ segment ∈ chain.segments,
    ∃ name,
      segment.pack = packKey none name ∧
        (world.slot? bucketPrefix (.pack name)).isSome

/-- Whatever a path index names is reachable from a tip. -/
def Resolves
    (objects : Objects)
    (tip : Sha)
    (index : PathIndex) : Prop :=
  index.tip = tip ∧
    ∀ sha, (PathNode.tree index.tree).Names sha →
      sha ∈ objects.reach tip

/-- The chain of a reference, and its path index if it has one. -/
def Recorded
    (objects : Objects)
    (contents : Contents)
    (bucketPrefix : Option Text)
    (refName : RefName)
    (chain : ChainManifest)
    (world : World) : Prop :=
  Complete objects contents chain ∧
    Supplied bucketPrefix chain world ∧
    ∀ index,
      world.slot? bucketPrefix (.ref refName .pathIndex) =
          some (.pathIndex index) →
        Resolves objects chain.tip index

/-- Packs and bundles are what they are named, and chains are complete. -/
structure Sourced
    (objects : Objects)
    (contents : Contents)
    (bucketPrefix : Option Text)
    (world : World) : Prop where
  packs :
    ∀ name body,
      world.slot? bucketPrefix (.pack name) = some body →
        PackBody contents name body
  bundles :
    ∀ refName tip body,
      world.slot? bucketPrefix (.ref refName (.bundle tip)) = some body →
        BundleBody objects contents tip body
  chains :
    ∀ refName chain,
      world.slot? bucketPrefix (.ref refName .chain) =
          some (.chain chain) →
        Recorded objects contents bucketPrefix refName chain world

/-- No pack goes away. -/
def KeepsPacks
    (bucketPrefix : Option Text)
    (before after : World) : Prop :=
  ∀ name,
    (before.slot? bucketPrefix (.pack name)).isSome →
      (after.slot? bucketPrefix (.pack name)).isSome

theorem KeepsPacks.refl (world : World) :
    KeepsPacks bucketPrefix world world :=
  fun _ present => present

theorem KeepsPacks.trans
    {first second third : World}
    (early : KeepsPacks bucketPrefix first second)
    (late : KeepsPacks bucketPrefix second third) :
    KeepsPacks bucketPrefix first third :=
  fun name present => late name (early name present)

theorem Supplied.later
    {chain : ChainManifest}
    {before after : World}
    (supplied : Supplied bucketPrefix chain before)
    (keeps : KeepsPacks bucketPrefix before after) :
    Supplied bucketPrefix chain after := by
  intro segment member
  rcases supplied segment member with ⟨name, same, present⟩
  exact ⟨name, same, keeps name present⟩

/-- What becomes of the slots of a sourced bucket. -/
structure Changed
    (objects : Objects)
    (contents : Contents)
    (bucketPrefix : Option Text)
    (before after : World) : Prop where
  packs :
    ∀ name,
      after.slot? bucketPrefix (.pack name) =
          before.slot? bucketPrefix (.pack name) ∨
        ∃ body,
          after.slot? bucketPrefix (.pack name) = some body ∧
            PackBody contents name body
  bundles :
    ∀ refName tip body,
      after.slot? bucketPrefix (.ref refName (.bundle tip)) = some body →
        before.slot? bucketPrefix (.ref refName (.bundle tip)) =
            some body ∨
          BundleBody objects contents tip body
  chains :
    ∀ refName,
      SameRecords bucketPrefix refName before after ∨
        after.slot? bucketPrefix (.ref refName .chain) = none ∨
        ∃ chain,
          after.slot? bucketPrefix (.ref refName .chain) =
              some (.chain chain) ∧
            Recorded objects contents bucketPrefix refName chain after

theorem Changed.keepsPacks
    {before after : World}
    (changed : Changed objects contents bucketPrefix before after) :
    KeepsPacks bucketPrefix before after := by
  intro name present
  rcases changed.packs name with same | ⟨body, stored, -⟩
  · rw [same]
    exact present
  · rw [stored]
    rfl

theorem Sourced.changed
    {before after : World}
    (sourced : Sourced objects contents bucketPrefix before)
    (changed : Changed objects contents bucketPrefix before after) :
    Sourced objects contents bucketPrefix after where
  packs := by
    intro name body stored
    rcases changed.packs name with same | ⟨other, found, named⟩
    · rw [same] at stored
      exact sourced.packs name body stored
    · rw [found] at stored
      cases stored
      exact named
  bundles := by
    intro refName tip body stored
    rcases changed.bundles refName tip body stored with same | holds
    · exact sourced.bundles refName tip body same
    · exact holds
  chains := by
    intro refName chain stored
    rcases changed.chains refName with same | gone | ⟨other, found, rest⟩
    · rw [same.1] at stored
      rcases sourced.chains refName chain stored with
        ⟨complete, supplied, resolves⟩
      refine
        ⟨complete, supplied.later changed.keepsPacks, fun index found => ?_⟩
      rw [same.2] at found
      exact resolves index found
    · rw [gone] at stored
      cases stored
    · rw [found] at stored
      cases stored
      exact rest

theorem changed_of_slots
    {before after : World}
    (same :
      ∀ slot : Slot,
        (∀ runId, slot ≠ .baselineTombstone runId) →
        after.slot? bucketPrefix slot = before.slot? bucketPrefix slot) :
    Changed objects contents bucketPrefix before after where
  packs := fun name => Or.inl (same _ (by simp))
  bundles := by
    intro refName tip body stored
    rw [same _ (by simp)] at stored
    exact Or.inl stored
  chains := fun refName =>
    Or.inl ⟨same _ (by simp), same _ (by simp)⟩

/-- What a put writes, if it is a pack or a bundle. -/
def Proper
    (objects : Objects)
    (contents : Contents)
    (body : Body) : Slot → Prop
  | .pack name => PackBody contents name body
  | .ref _ (.bundle tip) => BundleBody objects contents tip body
  | .ref _ .chain => False
  | .ref _ .pathIndex => False
  | _ => True

theorem changed_put
    {slot : Slot}
    {body : Body}
    (proper : Proper objects contents body slot)
    (world : World) :
    Changed objects contents bucketPrefix world
      (world.put (slot.key bucketPrefix) body) where
  packs := by
    intro name
    rw [slot?_put]
    split
    next same =>
        subst same
        exact Or.inr ⟨body, rfl, proper⟩
    · exact Or.inl rfl
  bundles := by
    intro refName tip other stored
    rw [slot?_put] at stored
    split at stored
    next same =>
        subst same
        cases stored
        exact Or.inr proper
    · exact Or.inl stored
  chains := by
    intro refName
    left
    constructor
    · rw [slot?_put]
      apply if_neg
      rintro rfl
      exact proper
    · rw [slot?_put]
      apply if_neg
      rintro rfl
      exact proper

/-! ## Locked sections -/

omit [Platform] in
/-- A path index that a truthful repository has extracted. -/
theorem resolves_of_extracted
    {packer : Packer}
    {repo : LocalRepo}
    {odb : Odb}
    (backed : RepoOver repo packer objects contents odb)
    {tip : Sha}
    {peeled : PeeledTip}
    (peels : repo.peelTagChain tip = .ok peeled)
    {index : PathIndex}
    (extracted : repo.extractPathIndex peeled tip = .ok (some index)) :
    Resolves objects tip index :=
  ⟨LocalRepo.extractPathIndex_tip extracted,
    fun _ names => backed.extracted peels extracted names⟩

/-- What a prepared push carries into the lock. -/
structure Carries
    (objects : Objects)
    (contents : Contents)
    (bucketPrefix : Option Text)
    (ready : ReadyState)
    (world : World) : Prop where
  brings :
    ∃ built,
      ready.packContentSha = built.1.contentSha ∧
        Brings objects contents (ready.prior.map ChainManifest.tip)
          ready.localSha ready.force built
  landed : (world.slot? bucketPrefix (.pack ready.packContentSha)).isSome
  prior :
    ∀ chain, ready.prior = some chain →
      Complete objects contents chain ∧ Supplied bucketPrefix chain world

theorem Carries.later
    {ready : ReadyState}
    {before after : World}
    (carries : Carries objects contents bucketPrefix ready before)
    (keeps : KeepsPacks bucketPrefix before after) :
    Carries objects contents bucketPrefix ready after where
  brings := carries.brings
  landed := keeps _ carries.landed
  prior := fun chain same =>
    ⟨(carries.prior chain same).1,
      (carries.prior chain same).2.later keeps⟩

theorem Carries.supplied
    {ready : ReadyState}
    {world : World}
    (carries : Carries objects contents bucketPrefix ready world) :
    Supplied bucketPrefix (committedManifest ready) world := by
  unfold committedManifest
  by_cases root : ready.force = true ∨ ready.prior = none
  · rw [nextManifest_root _ _ _ _ root]
    intro segment member
    rw [List.mem_singleton.1 member]
    exact ⟨_, rfl, carries.landed⟩
  · push Not at root
    rcases root with ⟨unforced, some?⟩
    rcases Option.ne_none_iff_exists'.1 some? with ⟨chain, same⟩
    rw [Bool.eq_false_iff.2 unforced, same]
    intro segment member
    rcases List.mem_cons.1 member with rfl | older
    · exact ⟨_, rfl, carries.landed⟩
    · exact (carries.prior chain same).2 segment older

theorem changed_committed
    {packer : Packer}
    {repo : LocalRepo}
    {odb : Odb}
    (backed : RepoOver repo packer objects contents odb)
    {ready : ReadyState}
    {world : World}
    (carries : Carries objects contents bucketPrefix ready world)
    {pathIndex : Option PathIndex}
    (extracted : pathIndexOf repo ready.localSha = .ok pathIndex) :
    Changed objects contents bucketPrefix world
      (committed bucketPrefix ready pathIndex world) where
  packs := fun name =>
    Or.inl (slot?_committed_of_artefact (isArtefact_pack name))
  bundles := by
    intro refName tip body stored
    rw [slot?_committed_of_artefact (isArtefact_bundle refName tip)]
      at stored
    exact Or.inl stored
  chains := by
    intro refName
    by_cases own : refName = ready.remoteRef
    · subst own
      right
      right
      refine ⟨committedManifest ready, ?_, ?_, ?_, ?_⟩
      · rw [slot?_committed, if_neg (by simp), if_pos rfl]
      · rcases carries.brings with ⟨built, named, brings⟩
        exact
          complete_committedManifest named brings fun chain same =>
            (carries.prior chain same).1
      · apply carries.supplied.later
        intro name present
        rw [slot?_committed_of_artefact (isArtefact_pack name)]
        exact present
      · intro index found
        rw [slot?_committed, if_pos rfl] at found
        have tip : (committedManifest ready).tip = ready.localSha :=
          nextManifest_tip _ _ _ _
        rw [tip]
        cases pathIndex with
        | none => cases found
        | some written =>
            cases found
            unfold pathIndexOf at extracted
            split at extracted
            · cases extracted
            · split at extracted
              · cases extracted
              next peeled peels =>
                  exact resolves_of_extracted backed peels extracted
    · left
      constructor
      · rw [slot?_committed, if_neg (by simp), if_neg (by simp [own])]
      · rw [slot?_committed, if_neg (by simp [own]), if_neg (by simp)]

/-- A push keeps a bucket sourced. -/
theorem changed_push
    {packer : Packer}
    {repo : LocalRepo}
    {odb : Odb}
    (backed : RepoOver repo packer objects contents odb)
    {ready : ReadyState}
    {world : World}
    (carries : Carries objects contents bucketPrefix ready world) :
    Changed objects contents bucketPrefix world
      (run answer (performPushUnderLock bucketPrefix repo ready)
        world).2 := by
  rcases run_performPushUnderLock repo ready world with
    ⟨pathIndex, accepts, ran⟩ | ⟨-, outcome, -, ran⟩
  · rw [ran]
    exact changed_committed backed carries accepts.pathIndex
  · rw [ran]
    exact changed_of_slots fun _ _ => rfl

/-- A sweep takes a chain, its path index and bundles, and no pack. -/
theorem changed_sweptRef
    (refName : RefName)
    (world : World) :
    Changed objects contents bucketPrefix world
      (sweptRef bucketPrefix refName world) where
  packs := fun name =>
    Or.inl (slot?_sweptRef_of_not_under (fun under => under) (by simp))
  bundles := by
    intro other tip body stored
    exact Or.inl (slot?_of_sweptRef (by simp) stored)
  chains := by
    intro other
    by_cases under : (Slot.ref other .chain).Under refName
    · right
      left
      exact slot?_sweptRef_of_under under (by simp) (by simp)
    · left
      exact
        ⟨slot?_sweptRef_of_not_under under (by simp),
          slot?_sweptRef_of_not_under under (by simp)⟩

theorem changed_delete
    (refName : RefName)
    (world : World) :
    Changed objects contents bucketPrefix world
      (run answer (deleteUnderLock bucketPrefix refName) world).2 := by
  by_cases refused :
      world.get? (chainKey bucketPrefix refName) = none ∨
        entriesHaveProtectedMarker
            (world.listing (refListingPrefix bucketPrefix refName)) =
          true
  · rcases run_deleteUnderLock_refused refused with ⟨message, ran⟩
    rw [ran]
    exact changed_of_slots fun _ _ => rfl
  · rw [not_or] at refused
    rw [run_deleteUnderLock (Option.isSome_iff_ne_none.2 refused.1)
      (Bool.eq_false_iff.2 refused.2)]
    exact changed_sweptRef refName world

theorem changed_deleteBranch
    (refName : RefName)
    (world : World) :
    Changed objects contents bucketPrefix world
      (run answer (deleteBranchUnderLock bucketPrefix refName)
        world).2 := by
  by_cases deletes : BranchDeletes bucketPrefix refName world
  · rcases run_deleteBranchUnderLock deletes with ⟨count, ran⟩
    rw [ran]
    exact changed_sweptRef refName world
  · rw [(run_deleteBranchUnderLock_refused deletes).2]
    exact changed_of_slots fun _ _ => rfl

/-- What a compaction writes besides the records of its reference. -/
theorem slot?_compacted_artefact
    {refName : RefName}
    {chain : ChainManifest}
    {built : BuiltPack × Option PathIndex × List UInt8}
    {world : World}
    {slot : Slot}
    (artefact : IsArtefact slot) :
    (compacted bucketPrefix refName chain built world).slot? bucketPrefix
        slot =
      if slot = .ref refName (.bundle chain.tip) then
        some (.file built.2.2)
      else if slot = .idx built.1.contentSha then
        some (.file built.1.idx)
      else if slot = .pack built.1.contentSha then
        some (.file built.1.pack)
      else world.slot? bucketPrefix slot := by
  have notTombstone : ∀ runId, slot ≠ .baselineTombstone runId := by
    rintro runId rfl
    exact artefact
  have notIndex : slot ≠ .ref refName .pathIndex := by
    rintro rfl
    exact artefact
  have notChain : slot ≠ .ref refName .chain := by
    rintro rfl
    exact artefact
  have untombed (indexed : World) :
      (if chain.fullAt = chain.tip then indexed
          else indexed.tombstone bucketPrefix refName chain.fullAt).slot?
          bucketPrefix slot =
        indexed.slot? bucketPrefix slot := by
    split
    · rfl
    · exact slot?_tombstone notTombstone
  have chained :
      (rechained bucketPrefix refName chain built world).slot?
          bucketPrefix slot =
        if slot = .ref refName (.bundle chain.tip) then
          some (.file built.2.2)
        else if slot = .idx built.1.contentSha then
          some (.file built.1.idx)
        else if slot = .pack built.1.contentSha then
          some (.file built.1.pack)
        else world.slot? bucketPrefix slot := by
    unfold rechained
    rw [chainKey_eq, bundleKey_eq, packIdxKey_eq, packKey_eq, slot?_put,
      if_neg notChain, slot?_put, slot?_put, slot?_put]
  unfold compacted
  rw [untombed]
  cases built.2.1 with
  | none => exact chained
  | some index =>
      simp only
      rw [pathIndexKey_eq, slot?_put, if_neg notIndex, chained]

theorem slot?_compacted_pack
    {refName : RefName}
    {chain : ChainManifest}
    {built : BuiltPack × Option PathIndex × List UInt8}
    {world : World}
    (name : Sha40) :
    (compacted bucketPrefix refName chain built world).slot? bucketPrefix
        (.pack name) =
      if name = built.1.contentSha then some (.file built.1.pack)
      else world.slot? bucketPrefix (.pack name) := by
  rw [slot?_compacted_artefact (isArtefact_pack name)]
  simp only [reduceCtorEq, if_false, Slot.pack.injEq]

theorem slot?_compacted_bundle
    {refName other : RefName}
    {chain : ChainManifest}
    {built : BuiltPack × Option PathIndex × List UInt8}
    {world : World}
    (tip : Sha40) :
    (compacted bucketPrefix refName chain built world).slot? bucketPrefix
        (.ref other (.bundle tip)) =
      if other = refName ∧ tip = chain.tip then some (.file built.2.2)
      else world.slot? bucketPrefix (.ref other (.bundle tip)) := by
  rw [slot?_compacted_artefact (isArtefact_bundle other tip)]
  simp only [reduceCtorEq, if_false, Slot.ref.injEq, Entry.bundle.injEq]

/-- A compaction keeps a bucket sourced. -/
theorem changed_compacted
    {packer : Packer}
    (exact : packer.Exact objects contents)
    {repo : LocalRepo}
    {odb : Odb}
    (backed : RepoOver repo packer objects contents odb)
    {scratch : Scratch}
    {refName : RefName}
    {chain : ChainManifest}
    {directory : Directory}
    {built : BuiltPack × Option PathIndex × List UInt8}
    {peeled : PeeledTip}
    (rebuilt : Rebuilt scratch chain directory built repo peeled)
    {world : World}
    (recorded :
      Recorded objects contents bucketPrefix refName chain world) :
    Changed objects contents bucketPrefix world
      (compacted bucketPrefix refName chain built world) := by
  have peels := rebuilt.peels
  have packs := rebuilt.pack
  rw [backed.peels] at peels
  rw [backed.baseline] at packs
  have holds := exact.baseline peels packs
  have body : PackBody contents built.1.contentSha (.file built.1.pack) := by
    refine ⟨by rw [holds.named], ?_⟩
    rw [← holds.named]
    exact holds.readable
  constructor
  case packs =>
      intro name
      rw [slot?_compacted_pack]
      split
      next same =>
          subst same
          exact Or.inr ⟨_, rfl, body⟩
      · exact Or.inl rfl
  case bundles =>
      intro other tip found stored
      rw [slot?_compacted_bundle] at stored
      split at stored
      next same =>
          cases stored
          right
          rw [same.2]
          exact ⟨_, rfl, backed.bundles _ _ _ rebuilt.bundle⟩
      · exact Or.inl stored
  case chains =>
      intro other
      by_cases own : other = refName
      · subst own
        right
        right
        refine ⟨compactedManifest chain built.1, ?_, ?_, ?_, ?_⟩
        · rw [slot?_compacted (by simp), if_neg (by simp), if_pos rfl]
        · exact complete_single holds.inside
        · intro segment member
          rw [List.mem_singleton.1 member]
          refine ⟨_, rfl, ?_⟩
          rw [slot?_compacted_pack, if_pos rfl]
          rfl
        · intro index found
          change Resolves objects chain.tip index
          rw [slot?_compacted (by simp)] at found
          cases index? : built.2.1 with
          | some written =>
              rw [if_pos ⟨rfl, by rw [index?]; rfl⟩, index?] at found
              cases found
              exact
                resolves_of_extracted backed rebuilt.peels
                  (rebuilt.pathIndex.trans (by rw [index?]))
          | none =>
              rw [if_neg (by simp [index?]), if_neg (by simp)] at found
              exact recorded.2.2 index found
      · left
        constructor
        · rw [slot?_compacted (by simp), if_neg (by simp),
            if_neg (by simp [own])]
        · rw [slot?_compacted (by simp), if_neg (by simp [own]),
            if_neg (by simp)]

end Buckets

/-! ## Clients of a repository -/

section Clients

variable
    [Platform]
    {packer : Packer}
    {objects : Objects}
    {contents : Contents}
    {bucketPrefix : Option Text}

/-- The contract of a program that keeps a bucket sourced. -/
abbrev sourcing
    (objects : Objects)
    (contents : Contents)
    (bucketPrefix : Option Text) : Contract Call World :=
  Contract.among (Sourced objects contents bucketPrefix)
    (KeepsPacks bucketPrefix) KeepsPacks.refl fun _ _ _ => KeepsPacks.trans

/-- What a task carries into the lock. -/
def Held
    (packer : Packer)
    (objects : Objects)
    (contents : Contents)
    (bucketPrefix : Option Text) : Task → World → Prop
  | .push repo ready, world =>
      (∃ odb, RepoOver repo packer objects contents odb) ∧
        Carries objects contents bucketPrefix ready world
  | .compact scratch, _ =>
      ∀ bundle packs repo,
        scratch.install bundle packs = .ok repo →
          ∃ odb, RepoOver repo packer objects contents odb
  | .delete, _ => True
  | .deleteBranch, _ => True

theorem Held.later
    {task : Task}
    {before after : World}
    (held : Held packer objects contents bucketPrefix task before)
    (keeps : KeepsPacks bucketPrefix before after) :
    Held packer objects contents bucketPrefix task after := by
  cases task with
  | push repo ready => exact ⟨held.1, held.2.later keeps⟩
  | compact scratch => exact held
  | delete => trivial
  | deleteBranch => trivial

theorem kept_of_changed
    {before after : World}
    (sourced : Sourced objects contents bucketPrefix before)
    (changed : Changed objects contents bucketPrefix before after) :
    Sourced objects contents bucketPrefix after ∧
      KeepsPacks bucketPrefix before after :=
  ⟨sourced.changed changed, changed.keepsPacks⟩

theorem permitsReads_sourcing :
    PermitsReads (sourcing objects contents bucketPrefix) := by
  intro request state reads sourced
  apply kept_of_changed sourced
  apply changed_of_slots
  intro slot _
  unfold World.slot? World.body? World.get?
  rw [bucket_answer_of_reads reads state]

/-- A proper put keeps a bucket sourced, and a pack stays there. -/
theorem safe_putProper
    {ε : Type}
    {convert : ObjectStoreError → ε}
    {slot : Slot}
    {content : List UInt8}
    (proper : Proper objects contents (.file content) slot)
    (world : World) :
    Safe (sourcing objects contents bucketPrefix) answer
      (whenOk fun _ later =>
        ∀ name, slot = .pack name →
          (later.slot? bucketPrefix (.pack name)).isSome)
      ((Store.putPath (slot.key bucketPrefix) content).mapError convert)
      world := by
  apply Safe.convert
  intro found _ sourced _
  refine ⟨kept_of_changed sourced (changed_put proper found), ?_⟩
  rintro later keeps - name rfl
  apply keeps
  change
    ((found.put ((Slot.pack name).key bucketPrefix)
      (.file content)).slot? bucketPrefix (.pack name)).isSome
  rw [slot?_put, if_pos rfl]
  rfl

/-- An upload keeps a bucket sourced and leaves the pack. -/
theorem safe_uploadBrought
    (refName : RefName)
    {prior : Option Sha}
    {localSha : Sha}
    {force : Bool}
    {built : BuiltPack × Option (List UInt8)}
    (brings : Brings objects contents prior localSha force built)
    (world : World) :
    Safe (sourcing objects contents bucketPrefix) answer
      (whenOk fun _ later =>
        (later.slot? bucketPrefix (.pack built.1.contentSha)).isSome)
      (uploadPackIdxBaseline bucketPrefix refName localSha built.1
        built.2)
      world := by
  rcases brings.pack with ⟨names, holds, -⟩
  have pack :
      Proper objects contents (.file built.1.pack)
        (.pack built.1.contentSha) :=
    ⟨by rw [holds.named], by rw [← holds.named]; exact holds.readable⟩
  have remains (before after : World) :
      KeepsPacks bucketPrefix before after →
        (before.slot? bucketPrefix (.pack built.1.contentSha)).isSome →
        (after.slot? bucketPrefix (.pack built.1.contentSha)).isSome :=
    fun keeps => keeps built.1.contentSha
  unfold uploadPackIdxBaseline
  rw [packKey_eq, packIdxKey_eq, bundleKey_eq]
  apply (safe_putProper pack world).andThen
  intro _ packed _ stored
  have idx :
      Proper objects contents (.file built.1.idx)
        (.idx built.1.contentSha) :=
    trivial
  apply
    ((safe_putProper idx packed).frame remains remains
      (stored _ rfl)).andThen
  rintro _ indexed - ⟨-, stored⟩
  rcases built with ⟨built, bundle⟩
  cases bundle with
  | none => exact fun later keeps _ => keeps _ stored
  | some bytes =>
      have bundled :
          Proper objects contents (.file bytes)
            (.ref refName (.bundle localSha)) :=
        ⟨bytes, rfl, brings.bundle bytes rfl⟩
      apply
        ((safe_putProper bundled indexed).frame remains remains
          stored).weaken
      intro outcome later _ kept
      cases outcome with
      | error error => trivial
      | ok done => exact kept.2

/-- Truthful clients keep a bucket sourced. -/
theorem keeps_sourcing
    (exact : packer.Exact objects contents)
    {Allowed : Operation → Prop}
    (truthful :
      ∀ operation, Allowed operation →
        Truthful packer objects contents operation)
    (ι : Type) :
    (repository Allowed bucketPrefix ι).Keeps
      (sourcing objects contents bucketPrefix)
      (fun _ found world =>
        Held packer objects contents bucketPrefix found.2 world) where
  fair := fun _ _ keeps => keeps
  met := fun _ _ => trivial
  stable := fun _ _ _ _ keeps held => held.later keeps
  begin := fun _ world sourced => ⟨sourced, KeepsPacks.refl world⟩
  elapse := fun _ _ sourced =>
    kept_of_changed sourced (changed_of_slots fun _ _ => rfl)
  prepare := by
    rintro client ⟨refName, operation, allowed⟩ world
    have honest := truthful operation allowed
    have prepared :
        Safe (sourcing objects contents bucketPrefix) answer
          (whenOk fun prepared later =>
            ∀ task, prepared = some task →
              Held packer objects contents bucketPrefix task later)
          (prepare bucketPrefix refName operation) world := by
      apply
        @keeping_prepare _ _ _ _
          (fun _ task later =>
            Held packer objects contents bucketPrefix task later)
          permitsReads_sourcing
          (fun _ _ _ _ keeps held => held.later keeps)
      case push =>
          rintro repo force localSpec rfl -
          rcases honest with ⟨odb, backed⟩
          have pushed :=
            @keeping_preparePush _
              (sourcing objects contents bucketPrefix) bucketPrefix
              world repo ⟨force, localSpec, refName⟩
              (fun chain state =>
                Complete objects contents chain ∧
                  Supplied bucketPrefix chain state)
              (fun _ built state =>
                (state.slot? bucketPrefix
                  (.pack built.1.contentSha)).isSome)
              KeepsPacks.refl (fun _ _ keeps => keeps)
              (fun state chain sourced found => by
                have recorded :=
                  sourced.chains refName chain (by
                    rw [World.slot?, ← chainKey_eq]
                    exact ((World.chain?_eq_some_iff _ _).1 found).1)
                exact ⟨recorded.1, recorded.2.1⟩)
              (fun _ _ _ keeps known =>
                ⟨known.1, known.2.later keeps⟩)
              (fun _ built _ _ keeps => keeps built.1.contentSha)
              (fun _ found built state git builds =>
                safe_uploadBrought refName
                  (brings_of_builds exact backed git builds) state)
          apply pushed.weaken
          intro outcome later _ carries
          cases outcome with
          | error error => trivial
          | ok outcome =>
              intro ready same
              rcases carries ready same with
                ⟨-, prior, found, built, preparedBy, landed⟩
              refine ⟨⟨odb, backed⟩, ?_, ?_, prior⟩
              · refine ⟨built, preparedBy.packContentSha, ?_⟩
                rw [preparedBy.localSha]
                exact
                  brings_of_builds exact backed preparedBy.git
                    preparedBy.builds
              · rw [preparedBy.packContentSha]
                exact landed
      case delete => exact fun _ _ _ _ => trivial
      case compact =>
          rintro scratch force _ rfl
          exact honest
      case deleteBranch => exact fun _ _ _ => trivial
    apply prepared.andThen
    intro found now _ held later keeps _ task same
    rcases Option.map_eq_some_iff.1 same with ⟨task, rfl, rfl⟩
    exact (held task rfl).later keeps
  work := by
    rintro client command ⟨refName, task⟩ world sourced held
    cases task with
    | push repo ready =>
        rcases held with ⟨⟨odb, backed⟩, carries⟩
        simp only [repository, work, run_toEffect]
        exact kept_of_changed sourced (changed_push backed carries)
    | delete =>
        simp only [repository, work, run_toEffect]
        exact kept_of_changed sourced (changed_delete refName world)
    | compact scratch =>
        simp only [repository, work, run_toEffect]
        rcases run_compactUnderLock scratch refName world with
          ⟨chain, directory, built, loaded, -, builds, ran⟩ |
            ⟨error, ran⟩
        · rw [ran]
          rcases rebuild_ok.1 builds with ⟨repo, peeled, rebuilt⟩
          rcases exists_install rebuilt.installed with
            ⟨bundle, packs, installed⟩
          rcases held bundle packs repo installed with ⟨odb, backed⟩
          have found := loadedChain_eq_ok _ _ _ loaded
          have recorded :=
            sourced.chains refName chain (by
              rw [World.slot?, ← chainKey_eq]
              exact ((World.chain?_eq_some_iff _ _).1 found).1)
          exact
            kept_of_changed sourced
              (changed_compacted exact backed rebuilt recorded)
        · rw [ran]
          exact
            kept_of_changed sourced (changed_of_slots fun _ _ => rfl)
    | deleteBranch =>
        simp only [repository, work, run_toEffect]
        exact
          kept_of_changed sourced (changed_deleteBranch refName world)

theorem sourced_empty (clock : Int) :
    Sourced objects contents bucketPrefix (.empty clock) where
  packs := fun _ _ stored => by
    rw [World.slot?, World.body?_empty] at stored
    cases stored
  bundles := fun _ _ _ stored => by
    rw [World.slot?, World.body?_empty] at stored
    cases stored
  chains := fun _ _ stored => by
    rw [World.slot?, World.body?_empty] at stored
    cases stored

/-- Some pack that a chain names is there and has an object. -/
def StoredIn
    (contents : Contents)
    (bucketPrefix : Option Text)
    (chain : ChainManifest)
    (world : World)
    (sha : Sha) : Prop :=
  ∃ segment ∈ chain.segments,
    ∃ name content found,
      segment.pack = packKey none name ∧
        world.body? (packKey bucketPrefix name) = some (.file content) ∧
        contents.packObjects content = some found ∧ sha ∈ found

theorem Sourced.storedIn
    {world : World}
    (sourced : Sourced objects contents bucketPrefix world)
    {chain : ChainManifest}
    (complete : Complete objects contents chain)
    (supplied : Supplied bucketPrefix chain world)
    {sha : Sha}
    (reached : sha ∈ objects.reach chain.tip) :
    StoredIn contents bucketPrefix chain world sha := by
  rcases Option.map_eq_some_iff.1 complete.newest with
    ⟨newest, first, tip⟩
  rw [← tip] at reached
  rcases complete.layered.covers first reached with
    ⟨segment, member, inside⟩
  rcases supplied segment member with ⟨name, same, present⟩
  rcases Option.isSome_iff_exists.1 present with ⟨body, stored⟩
  rcases sourced.packs name body stored with ⟨rfl, readable⟩
  rcases Option.isSome_iff_exists.1 readable with ⟨found, reads⟩
  refine ⟨segment, member, name, _, found, same, ?_, reads, ?_⟩
  · rw [packKey_eq]
    exact stored
  · rw [objectsOf_packKey same, Contents.packed, reads] at inside
    exact inside

/--
Whatever truthful clients have done, the packs a stored chain names have
everything its tip reaches, and every blob of its path index.
-/
theorem storedIn_of_reached
    (exact : packer.Exact objects contents)
    {ι : Type}
    [DecidableEq ι]
    {clock : Int}
    {pool :
      Pool ι (Command (Truthful packer objects contents)) Call Reply Unit
        (RefName × Task) World}
    (reached :
      (repository (Truthful packer objects contents) bucketPrefix
          ι).Reaches
        (fun _ action => action.Whole) (.quiet (.empty clock)) pool)
    {refName : RefName}
    {chain : ChainManifest}
    (found : pool.state.chain? bucketPrefix refName = some chain) :
    (∀ sha ∈ objects.reach chain.tip,
      StoredIn contents bucketPrefix chain pool.state sha) ∧
      ∀ index,
        pool.state.body? (pathIndexKey bucketPrefix refName) =
            some (.pathIndex index) →
          ∀ sha, (PathNode.tree index.tree).Names sha →
            StoredIn contents bucketPrefix chain pool.state sha := by
  have sourced : Sourced objects contents bucketPrefix pool.state :=
    (reached.kept (keeps_sourcing exact (fun _ allowed => allowed) ι)
      (fun _ _ whole => whole) (sourced_empty clock)).holds
  have stored := ((World.chain?_eq_some_iff _ _).1 found).1
  rw [chainKey_eq] at stored
  rcases sourced.chains refName chain stored with
    ⟨complete, supplied, resolves⟩
  constructor
  · intro sha inside
    exact sourced.storedIn complete supplied inside
  · intro index indexed sha names
    rw [pathIndexKey_eq] at indexed
    exact
      sourced.storedIn complete supplied
        ((resolves index indexed).2 sha names)

end Clients

/-! ## A schedule -/

section Schedules

attribute [local instance] Platform.simple

/-- The operations of clients with the small history. -/
abbrev InSmall : Operation → Prop :=
  Truthful smallPacker smallObjects .digits

/-- A push of one object of the small history. -/
def pushOf (force : Bool) (localSpec : Text) : Command InSmall where
  refName := .main
  operation := .push smallRepo force localSpec
  allowed := ⟨_, over_small⟩

/-- A compaction in a clone of the small history. -/
def compaction : Command InSmall where
  refName := .main
  operation := .compact ⟨.inOrder, fun _ _ => .ok smallRepo⟩ true
  allowed := by
    intro bundle packs repo same
    cases same
    exact ⟨_, over_small⟩

/-- A push from its start to its end. -/
def pushing
    (localSpec : Text)
    (calls : Nat) : List (Action Nat (Command InSmall)) :=
  .start 0 (pushOf false localSpec) ::
    Action.calls 0 calls ++ [.settle 0, .atomic 0]

/--
Two commits and a tag of the second one are pushed, the chain is compacted,
and a third commit is pushed.
-/
def pushedAround : List (Action Nat (Command InSmall)) :=
  pushing ['a'] 4 ++ pushing ['b'] 3 ++ pushing ['d'] 3 ++
    .start 0 compaction :: Action.calls 0 2 ++
    [.settle 0, .atomic 0] ++
    pushing ['c'] 3

theorem storedIn_of_reached_pushedAround :
    ∃ pool chain,
      (repository InSmall none Nat).schedule?
          (fun _ action => action.Whole) pushedAround
          (.quiet (.empty 0)) = some pool ∧
        pool.state.chain? none .main = some chain ∧
        chain.segments.map (fun segment => firstDigits [segment.sha]) =
          [['c'], ['d']] ∧
        (∀ sha ∈ smallObjects.reach chain.tip,
          StoredIn .digits none chain pool.state sha) ∧
        ∀ index,
          pool.state.body? (pathIndexKey none .main) =
              some (.pathIndex index) →
            ∀ sha, (PathNode.tree index.tree).Names sha →
              StoredIn .digits none chain pool.state sha := by
  have executed :
      ((repository InSmall none Nat).schedule?
          (fun _ action => action.Whole) pushedAround
          (.quiet (.empty 0))).bind
        (fun pool =>
          (pool.state.chain? none .main).map fun chain =>
            chain.segments.map fun segment =>
              firstDigits [segment.sha]) =
        some [['c'], ['d']] := by
    decide +kernel
  rcases Option.bind_eq_some_iff.1 executed with ⟨pool, reached, known⟩
  rcases Option.map_eq_some_iff.1 known with ⟨chain, found, segments⟩
  exact
    ⟨pool, chain, reached, found, segments,
      storedIn_of_reached (exact_checked smallObjects smallBound)
        (System.Reaches.refl.schedule reached) found⟩

end Schedules

end GitRemoteObjectStore.ChainClosure
