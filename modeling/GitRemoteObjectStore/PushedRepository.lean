import GitRemoteObjectStore.ChainIntegrity
import GitRemoteObjectStore.Repository

/-!
# Repositories that are only pushed to

Pushes delete no pack, no index and no bundle.  Whatever clients have pushed
to whatever references, every stored chain therefore names only packs and a
baseline bundle that are there.
-/

namespace GitRemoteObjectStore.Packchain

open CallProgram Prog

/-! ## Artefacts -/

section Buckets

variable [Platform] {bucketPrefix : Option Text}

/-- Packs, their indexes and bundles. -/
def IsArtefact : Slot → Prop
  | .pack _ => True
  | .idx _ => True
  | .ref _ (.bundle _) => True
  | _ => False

theorem isArtefact_pack (sha : Sha40) : IsArtefact (.pack sha) :=
  trivial

theorem isArtefact_idx (sha : Sha40) : IsArtefact (.idx sha) :=
  trivial

theorem isArtefact_bundle (refName : RefName) (sha : Sha40) :
    IsArtefact (.ref refName (.bundle sha)) :=
  trivial

/-- No artefact goes away. -/
def Grows
    (bucketPrefix : Option Text)
    (before after : World) : Prop :=
  ∀ slot,
    IsArtefact slot →
      (before.slot? bucketPrefix slot).isSome →
        (after.slot? bucketPrefix slot).isSome

theorem Grows.refl (world : World) : Grows bucketPrefix world world :=
  fun _ _ present => present

theorem Grows.trans
    {first second third : World}
    (early : Grows bucketPrefix first second)
    (late : Grows bucketPrefix second third) :
    Grows bucketPrefix first third :=
  fun slot artefact present =>
    late slot artefact (early slot artefact present)

theorem isSome_slot? {world : World} {slot : Slot} :
    (world.slot? bucketPrefix slot).isSome ↔
      (world.get? (slot.key bucketPrefix)).isSome := by
  unfold World.slot? World.body?
  rw [Option.isSome_map]

theorem grows_put (key : Text) (body : Body) (world : World) :
    Grows bucketPrefix world (world.put key body) := by
  intro slot _ present
  rw [isSome_slot?, World.get?_put]
  split
  · rfl
  · exact isSome_slot?.1 present

theorem Grows.present
    {before after : World}
    (grows : Grows bucketPrefix before after)
    {slot : Slot}
    (artefact : IsArtefact slot)
    (present : (before.get? (slot.key bucketPrefix)).isSome) :
    (after.get? (slot.key bucketPrefix)).isSome :=
  isSome_slot?.1 (grows slot artefact (isSome_slot?.2 present))

theorem Grows.packStored
    {before after : World}
    (grows : Grows bucketPrefix before after)
    {pack : Text}
    (stored : PackStored bucketPrefix before pack) :
    PackStored bucketPrefix after pack := by
  rcases stored with ⟨sha, same, pack, idx⟩
  rw [packKey_eq] at pack
  rw [packIdxKey_eq] at idx
  refine ⟨sha, same, ?_, ?_⟩
  · rw [packKey_eq]
    exact grows.present (isArtefact_pack sha) pack
  · rw [packIdxKey_eq]
    exact grows.present (isArtefact_idx sha) idx

theorem Grows.bundle
    {before after : World}
    (grows : Grows bucketPrefix before after)
    {refName : RefName}
    {sha : Sha}
    (stored :
      (before.get? (bundleKey bucketPrefix refName sha)).isSome) :
    (after.get? (bundleKey bucketPrefix refName sha)).isSome := by
  rw [bundleKey_eq] at stored ⊢
  exact grows.present (isArtefact_bundle refName sha) stored

/-- Everything a manifest names stays there. -/
theorem intact_later
    {refName : RefName}
    {manifest : ChainManifest}
    {before after : World}
    (intact : Intact bucketPrefix refName before manifest)
    (grows : Grows bucketPrefix before after) :
    Intact bucketPrefix refName after manifest where
  packs := fun segment member =>
    grows.packStored (intact.packs segment member)
  baseline := grows.bundle intact.baseline

/-- Every stored chain names only what is there. -/
def Stocked (bucketPrefix : Option Text) (world : World) : Prop :=
  ∀ refName manifest,
    world.chain? bucketPrefix refName = some manifest →
      Intact bucketPrefix refName world manifest

/-- What an upload leaves in the bucket. -/
structure Landed
    (bucketPrefix : Option Text)
    (refName : RefName)
    (localSha : Sha)
    (built : BuiltPack × Option (List UInt8))
    (world : World) : Prop where
  pack : PackStored bucketPrefix world (packKey none built.1.contentSha)
  bundle :
    built.2.isSome →
      (world.get? (bundleKey bucketPrefix refName localSha)).isSome

theorem Landed.later
    {refName : RefName}
    {localSha : Sha}
    {built : BuiltPack × Option (List UInt8)}
    {before after : World}
    (landed : Landed bucketPrefix refName localSha built before)
    (grows : Grows bucketPrefix before after) :
    Landed bucketPrefix refName localSha built after where
  pack := grows.packStored landed.pack
  bundle := fun some => grows.bundle (landed.bundle some)

/-! ## Commits -/

/-- A commit touches no artefact. -/
theorem slot?_committed_of_artefact
    {ready : ReadyState}
    {pathIndex : Option PathIndex}
    {world : World}
    {slot : Slot}
    (artefact : IsArtefact slot) :
    (committed bucketPrefix ready pathIndex world).slot? bucketPrefix
        slot =
      world.slot? bucketPrefix slot := by
  have notTombstone : ∀ runId, slot ≠ .baselineTombstone runId := by
    rintro runId rfl
    exact artefact
  have notIndex : slot ≠ .ref ready.remoteRef .pathIndex := by
    rintro rfl
    exact artefact
  have notChain : slot ≠ .ref ready.remoteRef .chain := by
    rintro rfl
    exact artefact
  have notHead : slot ≠ .head := by
    rintro rfl
    exact artefact
  have notFormat : slot ≠ .format := by
    rintro rfl
    exact artefact
  unfold committed
  rw [slot?_cleaned notTombstone, slot?_indexed notIndex]
  unfold chained formatted
  rw [chainKey_eq, slot?_put, if_neg notChain, headKey_eq, formatKey_eq,
    slot?_putIfAbsent_ne notHead, slot?_putIfAbsent_ne notFormat]

theorem grows_committed
    (ready : ReadyState)
    (pathIndex : Option PathIndex)
    (world : World) :
    Grows bucketPrefix world
      (committed bucketPrefix ready pathIndex world) := by
  intro slot artefact present
  rw [slot?_committed_of_artefact artefact]
  exact present

/-- The chains of other references are left alone. -/
theorem chain?_committed_of_ne
    {ready : ReadyState}
    {pathIndex : Option PathIndex}
    {world : World}
    {refName : RefName}
    (other : refName ≠ ready.remoteRef) :
    (committed bucketPrefix ready pathIndex world).chain? bucketPrefix
        refName =
      world.chain? bucketPrefix refName := by
  have same :
      (committed bucketPrefix ready pathIndex world).slot? bucketPrefix
          (.ref refName .chain) =
        world.slot? bucketPrefix (.ref refName .chain) := by
    unfold committed
    rw [slot?_cleaned (by simp), slot?_indexed (by simp)]
    unfold chained formatted
    rw [chainKey_eq, slot?_put, if_neg (by simp [other]), headKey_eq,
      formatKey_eq, slot?_putIfAbsent_ne (by simp),
      slot?_putIfAbsent_ne (by simp)]
  unfold World.slot? at same
  unfold World.chain?
  rw [chainKey_eq, same]

/-- A push that has a prior chain and is not forced builds on it. -/
theorem PreparedBy.bundle_isSome
    {repo : LocalRepo}
    {ready : ReadyState}
    {found : LocalGit}
    {built : BuiltPack × Option (List UInt8)}
    (prepared : PreparedBy repo ready found built)
    (root : ready.force = true ∨ ready.prior = none) :
    built.2.isSome := by
  by_contra absent
  have builds := prepared.builds
  rcases built with ⟨pack, bundle⟩
  simp only [Option.not_isSome_iff_eq_none] at absent
  subst absent
  rcases buildPackAndBaseline_none builds with ⟨unforced, based⟩
  rcases root with forced | first
  · rw [ReadyState.spec, forced] at unforced
    cases unforced
  · have prior := prepared.git.prior
    rw [first] at prior
    rw [priorCommitOf_none prior] at based
    cases based

/-- The manifest a push commits names only what is there. -/
theorem intact_committedManifest
    {repo : LocalRepo}
    {ready : ReadyState}
    {found : LocalGit}
    {built : BuiltPack × Option (List UInt8)}
    {world : World}
    (prepared : PreparedBy repo ready found built)
    (landed :
      Landed bucketPrefix ready.remoteRef ready.localSha built world)
    (prior :
      ∀ manifest, ready.prior = some manifest →
        Intact bucketPrefix ready.remoteRef world manifest) :
    Intact bucketPrefix ready.remoteRef world
      (committedManifest ready) := by
  have pack :
      PackStored bucketPrefix world
        (packKey none ready.packContentSha) := by
    rw [prepared.packContentSha]
    exact landed.pack
  unfold committedManifest
  by_cases root : ready.force = true ∨ ready.prior = none
  · rw [nextManifest_root _ _ _ _ root]
    constructor
    · intro segment member
      rw [List.mem_singleton.1 member]
      exact pack
    · exact landed.bundle (prepared.bundle_isSome root)
  · rw [not_or, Bool.not_eq_true] at root
    rcases Option.ne_none_iff_exists'.1 root.2 with ⟨manifest, same⟩
    have based := prior manifest same
    rw [root.1, same]
    constructor
    · intro segment member
      rcases List.mem_cons.1 member with rfl | inPrior
      · exact pack
      · exact based.packs segment inPrior
    · exact based.baseline

/-- A push keeps every chain intact. -/
theorem Stocked.push
    {repo : LocalRepo}
    {ready : ReadyState}
    {world : World}
    (stocked : Stocked bucketPrefix world)
    (intact :
      Intact bucketPrefix ready.remoteRef world
        (committedManifest ready)) :
    Stocked bucketPrefix
        (run answer (performPushUnderLock bucketPrefix repo ready)
          world).2 ∧
      Grows bucketPrefix world
        (run answer (performPushUnderLock bucketPrefix repo ready)
          world).2 := by
  rcases run_performPushUnderLock repo ready world with
    ⟨pathIndex, -, ran⟩ | ⟨-, outcome, -, ran⟩
  · rw [ran]
    have grows :=
      @grows_committed _ bucketPrefix ready pathIndex world
    refine ⟨?_, grows⟩
    intro refName manifest found
    by_cases own : refName = ready.remoteRef
    · subst own
      simp only at found
      rw [chain?_committed] at found
      cases found
      exact intact_later intact grows
    · simp only at found
      rw [chain?_committed_of_ne own] at found
      exact intact_later (stocked refName manifest found) grows
  · rw [ran]
    exact ⟨stocked, Grows.refl world⟩

end Buckets

/-! ## Clients that only push -/

section Clients

variable [Platform] {bucketPrefix : Option Text}

/-- An operation that pushes something. -/
def IsPush : Operation → Prop
  | .push _ _ localSpec => localSpec ≠ []
  | .compact _ _ => False
  | .deleteBranch _ => False

/-- The contract of clients that only push. -/
abbrev growth (bucketPrefix : Option Text) : Contract Call World :=
  Contract.among (Stocked bucketPrefix) (Grows bucketPrefix) Grows.refl
    fun _ _ _ => Grows.trans

/-- What a prepared push carries into its section. -/
def Stowed
    (bucketPrefix : Option Text)
    (refName : RefName) : Task → World → Prop
  | .push repo ready, world =>
      ready.remoteRef = refName ∧
        (∀ manifest, ready.prior = some manifest →
          Intact bucketPrefix refName world manifest) ∧
          ∃ found built,
            PreparedBy repo ready found built ∧
              Landed bucketPrefix refName ready.localSha built world
  | .delete, _ => False
  | .compact _, _ => False
  | .deleteBranch, _ => False

theorem Stowed.later
    {refName : RefName}
    {task : Task}
    {before after : World}
    (stowed : Stowed bucketPrefix refName task before)
    (grows : Grows bucketPrefix before after) :
    Stowed bucketPrefix refName task after := by
  cases task with
  | push repo ready =>
      rcases stowed with ⟨same, prior, found, built, prepared, landed⟩
      exact
        ⟨same,
          fun manifest based => intact_later (prior manifest based) grows,
          found, built, prepared, landed.later grows⟩
  | delete => exact stowed.elim
  | compact scratch => exact stowed.elim
  | deleteBranch => exact stowed.elim

/-- A write of an artefact keeps chains intact and is there afterwards. -/
theorem safe_putArtefact
    {ε : Type}
    {convert : ObjectStoreError → ε}
    {slot : Slot}
    (artefact : IsArtefact slot)
    (content : List UInt8)
    (world : World) :
    Safe (growth bucketPrefix) answer
      (whenOk fun _ later =>
        (later.get? (slot.key bucketPrefix)).isSome)
      ((Store.putPath (slot.key bucketPrefix) content).mapError convert)
      world := by
  apply Safe.convert
  intro found _ stocked _
  have grows :=
    @grows_put _ bucketPrefix (slot.key bucketPrefix) (.file content)
      found
  refine ⟨⟨?_, grows⟩, ?_⟩
  · intro refName manifest read
    refine intact_later (stocked refName manifest ?_) grows
    rw [World.chain?_eq_some_iff] at read ⊢
    rw [chainKey_eq] at read ⊢
    refine ⟨?_, read.2⟩
    rw [← read.1]
    symm
    apply (slot?_put _).trans
    apply if_neg
    rintro rfl
    exact artefact
  · intro later grown _
    have present :
        ((found.put (slot.key bucketPrefix) (.file content)).slot?
          bucketPrefix slot).isSome := by
      rw [isSome_slot?, World.get?_put_self]
      rfl
    exact isSome_slot?.1 (grown slot artefact present)

/-- An upload keeps chains intact and leaves its artefacts. -/
theorem safe_uploadPackIdxBaseline_growth
    (refName : RefName)
    (localSha : Sha)
    (built : BuiltPack × Option (List UInt8))
    (world : World) :
    Safe (growth bucketPrefix) answer
      (whenOk fun _ later =>
        Landed bucketPrefix refName localSha built later)
      (uploadPackIdxBaseline bucketPrefix refName localSha built.1
        built.2)
      world := by
  unfold uploadPackIdxBaseline
  rw [packKey_eq, packIdxKey_eq, bundleKey_eq]
  apply (safe_putArtefact (isArtefact_pack _) _ _).andThen
  intro _ packed _ pack
  have packRemains (before after : World) (grows : Grows bucketPrefix before after) :=
    @Grows.present _ bucketPrefix before after grows _
      (isArtefact_pack built.1.contentSha)
  apply
    ((safe_putArtefact (isArtefact_idx _) _ packed).frame packRemains
      packRemains pack).andThen
  rintro _ indexed - ⟨idx, pack⟩
  have stored :
      PackStored bucketPrefix indexed
        (packKey none built.1.contentSha) := by
    refine ⟨built.1.contentSha, rfl, ?_, ?_⟩
    · rw [packKey_eq]
      exact pack
    · rw [packIdxKey_eq]
      exact idx
  rcases built with ⟨pack, bundle⟩
  cases bundle with
  | none =>
      intro later grows _
      refine ⟨grows.packStored stored, ?_⟩
      intro absent
      cases absent
  | some bundle =>
      apply
        ((safe_putArtefact (isArtefact_bundle refName localSha) bundle
            indexed).frame
          (fun _ _ grows => Grows.packStored grows)
          (fun _ _ grows => Grows.packStored grows) stored).weaken
      intro outcome later _ bundled
      cases outcome with
      | error error => trivial
      | ok done =>
          refine ⟨bundled.2, fun _ => ?_⟩
          rw [bundleKey_eq]
          exact bundled.1

theorem permitsReads_growth : PermitsReads (growth bucketPrefix) := by
  intro request state reads stocked
  have same := bucket_answer_of_reads reads state
  have grows : Grows bucketPrefix state (answer request state).2 := by
    intro slot _ present
    rw [isSome_slot?, World.get?, same]
    exact isSome_slot?.1 present
  refine ⟨fun refName manifest found => ?_, grows⟩
  apply intact_later (stocked refName manifest ?_) grows
  rw [← found]
  unfold World.chain? World.body? World.get?
  rw [same]

/-- Clients that only push keep chains intact. -/
theorem keeps_growth (ι : Type) :
    (repository IsPush bucketPrefix ι).Keeps (growth bucketPrefix)
      (fun _ found => Stowed bucketPrefix found.1 found.2) where
  fair := fun _ _ grows => grows
  met := fun _ _ => trivial
  stable := fun _ _ _ _ grows stowed => stowed.later grows
  begin := fun _ world stocked => ⟨stocked, Grows.refl world⟩
  elapse := by
    intro duration world stocked
    have grows : Grows bucketPrefix world (world.wait duration) :=
      fun _ _ present => present
    exact
      ⟨fun refName manifest found =>
          intact_later (stocked refName manifest found) grows,
        grows⟩
  prepare := by
    rintro client ⟨refName, operation, pushes⟩ world
    have prepared :
        Safe (growth bucketPrefix) answer
          (whenOk fun prepared later =>
            ∀ task, prepared = some task →
              Stowed bucketPrefix refName task later)
          (prepare bucketPrefix refName operation) world := by
      apply
        @keeping_prepare _ _ _ _
          (fun _ task later => Stowed bucketPrefix refName task later)
          permitsReads_growth (fun _ _ _ _ grows stowed => stowed.later grows)
      case push =>
          rintro repo force localSpec rfl named
          have pushed :=
            @keeping_preparePush _ (growth bucketPrefix) bucketPrefix
              world repo ⟨force, localSpec, refName⟩
              (fun manifest state =>
                Intact bucketPrefix refName state manifest)
              (Landed bucketPrefix refName) Grows.refl
              (fun _ _ grows => grows)
              (fun state chain stocked found =>
                stocked refName chain found)
              (fun _ _ _ grows intact => intact_later intact grows)
              (fun _ _ _ _ grows landed => landed.later grows)
              (fun _ found built state _ _ =>
                safe_uploadPackIdxBaseline_growth refName found.localSha
                  built state)
          apply pushed.weaken
          intro outcome later _ carries
          cases outcome with
          | error error => trivial
          | ok outcome =>
              intro ready same
              exact carries ready same
      case delete =>
          rintro repo force state rfl
          exact (pushes rfl).elim
      case compact =>
          rintro scratch force state rfl
          exact pushes.elim
      case deleteBranch =>
          rintro confirmed state rfl
          exact pushes.elim
    apply prepared.andThen
    intro found now _ stowed later grows _ task same
    rcases Option.map_eq_some_iff.1 same with ⟨task, rfl, rfl⟩
    exact (stowed task rfl).later grows
  work := by
    rintro client command ⟨refName, task⟩ world stocked stowed
    cases task with
    | push repo ready =>
        rcases stowed with ⟨rfl, prior, found, built, prepared, landed⟩
        simp only [repository, work, run_toEffect]
        exact
          Stocked.push stocked
            (intact_committedManifest prepared landed prior)
    | delete => exact stowed.elim
    | compact scratch => exact stowed.elim
    | deleteBranch => exact stowed.elim

/-- Whatever has been pushed, chains name only what is there. -/
theorem stocked_of_reached
    {ι : Type}
    [DecidableEq ι]
    {clock : Int}
    {pool :
      Pool ι (Command IsPush) Call Reply Unit (RefName × Task) World}
    (reached :
      (repository IsPush bucketPrefix ι).Reaches
        (fun _ action => action.Whole) (.quiet (.empty clock)) pool) :
    Stocked bucketPrefix pool.state := by
  have initial : Stocked bucketPrefix (.empty clock) := by
    intro refName manifest found
    have stored := ((World.chain?_eq_some_iff _ _).1 found).1
    rw [World.body?_empty] at stored
    cases stored
  exact
    (reached.kept (keeps_growth ι) (fun _ _ whole => whole)
      initial).holds

end Clients

end GitRemoteObjectStore.Packchain
