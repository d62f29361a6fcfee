import GitRemoteObjectStore.FetchClosure
import GitRemoteObjectStore.SegmentInstalls

/-!
# Which buckets can be cloned

A clone is a full fetch into a repository that has none of a chain's
segments.  When the bucket stays as honest clients have left it and nothing
fails, a clone succeeds exactly if the packs the chain names and its baseline
are there and no two segments have one name; it then has everything that the
tip reaches.
-/

namespace GitRemoteObjectStore.Clones

open CallProgram Prog Packchain Closure Arrivals
open GitRemoteObjectStore.ChainClosure
open Provenance
open FetchClosure (Holding)

/-! ## Repositories that take what they are given -/

/-- Installing a readable file succeeds. -/
structure Taking
    {ρ : Type}
    (ops : LocalOps ρ)
    (contents : Contents) : Prop where
  unbundleAt :
    ∀ repo bytes found,
      contents.bundleObjects bytes = some found →
        ∃ later, ops.unbundleAt repo (.file bytes) = .ok later
  installPack :
    ∀ repo bytes found,
      contents.packObjects bytes = some found →
        ∃ later, ops.installPack repo (.file bytes) = .ok later

section Installing

variable
    {ρ : Type}
    {ops : LocalOps ρ}
    {contents : Contents}
    {held : ρ → Set Sha}

/-- A file with a readable pack in it. -/
def Readable (contents : Contents) (body : Body) : Prop :=
  ∃ bytes found,
    body = .file bytes ∧ contents.packObjects bytes = some found

theorem localStep_eq_ok
    {repo later : ρ}
    {step : ρ → Except InstallError ρ}
    (stepped : step repo = .ok later) :
    localStep repo step = .ok later := by
  unfold localStep
  rw [stepped]
  rfl

/-- Installing readable packs succeeds and adds what is in them. -/
theorem installPacks_taking
    (holding : Holding ops contents held)
    (taking : Taking ops contents)
    {packs : List Body}
    (readable : ∀ body ∈ packs, Readable contents body)
    (repo : ρ) :
    ∃ later,
      installPacks ops packs repo = .ok later ∧
        held repo ⊆ held later ∧
          ∀ body ∈ packs, ∀ bytes found,
            body = .file bytes →
              contents.packObjects bytes = some found →
                (found : Set Sha) ⊆ held later := by
  induction packs generalizing repo with
  | nil =>
      refine ⟨repo, rfl, subset_rfl, ?_⟩
      intro body member
      cases member
  | cons pack rest hypothesis =>
      rcases readable pack List.mem_cons_self with
        ⟨bytes, found, rfl, reads⟩
      rcases taking.installPack repo bytes found reads with
        ⟨next, installed⟩
      have grown := holding.installPack _ _ _ _ reads installed
      rcases
        hypothesis
          (fun body member =>
            readable body (List.mem_cons_of_mem _ member))
          next with
        ⟨later, ran, kept, added⟩
      refine ⟨later, ?_, ?_, ?_⟩
      · unfold installPacks at ran ⊢
        rw [List.foldlM_cons, localStep_eq_ok installed]
        exact ran
      · refine subset_trans ?_ kept
        rw [grown]
        exact Set.subset_union_left
      · intro body member bytes' found' same reads'
        rcases List.mem_cons.1 member with rfl | member
        · cases same
          rw [reads] at reads'
          cases reads'
          refine subset_trans ?_ kept
          rw [grown]
          exact Set.subset_union_right
        · exact added body member bytes' found' same reads'

/-- So does installing a bundle first. -/
theorem installAll_taking
    (holding : Holding ops contents held)
    (taking : Taking ops contents)
    {bytes : List UInt8}
    {based : Finset Sha}
    (reads : contents.bundleObjects bytes = some based)
    {packs : List Body}
    (readable : ∀ body ∈ packs, Readable contents body)
    (repo : ρ) :
    ∃ later,
      installAll ops (.file bytes) packs repo = .ok later ∧
        held repo ⊆ held later ∧
          ∀ body ∈ packs, ∀ bytes found,
            body = .file bytes →
              contents.packObjects bytes = some found →
                (found : Set Sha) ⊆ held later := by
  rcases taking.unbundleAt repo bytes based reads with
    ⟨next, unbundled⟩
  have grown := holding.unbundleAt _ _ _ _ reads unbundled
  rcases installPacks_taking holding taking readable next with
    ⟨later, ran, kept, added⟩
  refine ⟨later, ?_, ?_, added⟩
  · unfold installAll
    rw [localStep_eq_ok unbundled]
    exact ran
  · refine subset_trans ?_ kept
    rw [grown]
    exact Set.subset_union_left

end Installing

/-! ## What a fetch has found -/

section Found

variable
    [Platform]
    {bucketPrefix : Option Text}
    {ρ : Type}
    {ops : LocalOps ρ}

/-- The baseline bundle and the packs that a chain names are there. -/
structure Present
    (bucketPrefix : Option Text)
    (refName : RefName)
    (chain : ChainManifest)
    (world : World) : Prop where
  bundle :
    (world.get? (bundleKey bucketPrefix refName chain.fullAt)).isSome
  packs :
    ∀ segment ∈ chain.segments,
      (world.get? (packKeyFromRelative bucketPrefix segment.pack)).isSome

omit [Platform] in
theorem exists_body
    {world : World}
    {key : Text}
    (there : (world.get? key).isSome) :
    ∃ body, world.body? key = some body := by
  rcases Option.isSome_iff_exists.1 there with ⟨object, found⟩
  exact ⟨object.body, by rw [World.body?, found]; rfl⟩

/-- What is present is the chain's own. -/
theorem Present.exists_own
    {refName : RefName}
    {chain : ChainManifest}
    {world : World}
    (canonical :
      ∀ segment ∈ chain.segments,
        ∃ name, segment.pack = packKey none name)
    (present : Present bucketPrefix refName chain world) :
    ∃ bundle packs,
      Own bucketPrefix refName chain world bundle packs := by
  have each :
      ∀ segment ∈ chain.segments,
        ∃ body, Holds bucketPrefix world segment body := by
    intro segment member
    rcases canonical segment member with ⟨name, same⟩
    rcases exists_body (present.packs segment member) with ⟨body, found⟩
    rw [same, packKeyFromRelative_packKey] at found
    exact ⟨body, name, same, found⟩
  have packed :
      ∃ packs,
        List.Forall₂ (Holds bucketPrefix world) chain.segments packs := by
    generalize chain.segments = segments at each ⊢
    induction segments with
    | nil => exact ⟨[], .nil⟩
    | cons segment older hypothesis =>
        rcases each segment List.mem_cons_self with ⟨body, holds⟩
        rcases
          hypothesis fun other member =>
            each other (List.mem_cons_of_mem _ member) with
          ⟨packs, rest⟩
        exact ⟨body :: packs, .cons holds rest⟩
  rcases exists_body present.bundle with ⟨bundle, based⟩
  rcases packed with ⟨packs, stored⟩
  exact ⟨bundle, packs, based, stored⟩

omit [Platform] in
theorem join_firstErr
    (before : DrainedDownloads)
    (download : SpawnedDownload)
    (outcome : Except FetchError Body) :
    (before.join download outcome).firstErr = none →
      before.firstErr = none ∧ ∃ body, outcome = .ok body := by
  rcases download with ⟨key, dest, artifact⟩
  cases outcome with
  | ok body =>
      cases artifact <;> exact fun fine => ⟨fine, body, rfl⟩
  | error error =>
      intro fine
      rcases Option.or_eq_none_iff.1 fine with ⟨-, failed⟩
      cases failed

omit [Platform] in
/-- Without a first error every download has found its object. -/
theorem found_of_firstErr
    {world : World}
    {downloads : List SpawnedDownload}
    {before : DrainedDownloads}
    (fine :
      (downloads.foldl
          (fun drained download =>
            drained.join download (download.obtained world))
          before).firstErr = none) :
    before.firstErr = none ∧
      ∀ download ∈ downloads,
        (world.get? download.key).isSome := by
  induction downloads generalizing before with
  | nil =>
      refine ⟨fine, ?_⟩
      intro download member
      cases member
  | cons download rest hypothesis =>
      rcases hypothesis fine with ⟨joined, others⟩
      rcases join_firstErr _ _ _ joined with ⟨first, body, obtained⟩
      refine ⟨first, ?_⟩
      intro other member
      rcases List.mem_cons.1 member with rfl | member
      · unfold SpawnedDownload.obtained at obtained
        cases found : world.body? other.key with
        | some body => exact World.isSome_of_body? found
        | none =>
            rw [found] at obtained
            cases artifact : other.artifact <;>
              rw [artifact] at obtained <;> cases obtained
      · exact others other member

/-- A full fetch changes nothing in the bucket. -/
theorem fetchFull_cases
    {world : World}
    {refName : RefName}
    {needed : List ChainSegment}
    {sha : Sha}
    (completion : Completion)
    (repo : ρ) :
    ∃ outcome,
      run answer
          (fetchFull ops bucketPrefix completion refName repo needed
            (some sha))
          world =
        (outcome, world) ∧
      (∀ later,
        outcome = .ok later →
          (∀ segment ∈ needed,
            (world.get?
              (packKeyFromRelative bucketPrefix segment.pack)).isSome) ∧
          (world.get? (bundleKey bucketPrefix refName sha)).isSome ∧
          (needed.map ChainSegment.sha).Nodup) ∧
      ∀ key left,
        outcome = .error (.packchain (.packMissing key), left) →
          left = repo := by
  unfold fetchFull
  rw [if_neg (by simp)]
  cases spawns :
      spawnFullDownloads bucketPrefix refName needed (some sha) with
  | error error =>
      refine ⟨_, rfl, ?_, ?_⟩
      · intro later impossible
        cases impossible
      · intro key left same
        cases same
        rfl
  | ok downloads =>
      dsimp only
      rw [run_bind, run_drainFullDownloads]
      dsimp only
      cases failed :
          (drained world (completion.arrange downloads)).firstErr with
      | some error =>
          refine ⟨_, rfl, ?_, ?_⟩
          · intro later impossible
            cases impossible
          · intro key left same
            cases same
            rfl
      | none =>
          refine
            ⟨installDrained ops repo
                (drained world (completion.arrange downloads)) needed,
              ?_, ?_, ?_⟩
          · dsimp only
            generalize installDrained ops repo _ needed = outcome
            cases outcome <;> rfl
          · intro later installed
            have all := (found_of_firstErr failed).2
            rcases bind_eq_ok.1 spawns with ⟨packs, mapped, same⟩
            cases same
            refine ⟨?_, ?_, nodup_of_installDrained installed⟩
            · intro segment member
              rcases
                exists_of_forall₂ (mapM_eq_ok.1 mapped).flip member with
                ⟨download, inside, spawned⟩
              rcases spawnSegment_eq_ok.1 spawned with ⟨name, -, rfl⟩
              exact
                all _
                  (Completion.mem_arrange.2
                    (List.mem_append_left _ inside))
            · exact
                all _
                  (Completion.mem_arrange.2
                    (List.mem_append_right _ List.mem_cons_self))
          · intro key left same
            exact absurd rfl (installDrained_ne_packMissing same key)

/-- Attempts at a chain that stays as it is, from a repository without it. -/
theorem retries_found
    {world : World}
    {refName : RefName}
    {chain : ChainManifest}
    (found : world.chain? bucketPrefix refName = some chain)
    {cold : ρ}
    (isCold :
      ∀ segment ∈ chain.segments,
        ops.contains cold segment.sha = false)
    {completions : Nat → Completion}
    {sha : Sha}
    {remaining : Nat}
    {later : ρ}
    (fetched :
      (run answer
          (fetchWithPackMissingRetries ops bucketPrefix completions refName
            sha none remaining cold)
          world).1 =
        .ok later) :
    Present bucketPrefix refName chain world ∧
      (chain.segments.map ChainSegment.sha).Nodup := by
  have loads := loadedChain_of_chain? _ _ found
  induction remaining with
  | zero =>
      rcases
        @fetchFull_cases _ bucketPrefix ρ ops world refName chain.segments
          chain.fullAt (completions 0) cold with
        ⟨outcome, ran, succeeds, -⟩
      unfold fetchWithPackMissingRetries at fetched
      rw [run_bind, run_attempt,
        (fetchOnce_cold found isCold (completions 0) sha).1, ran] at fetched
      cases outcome with
      | ok warm =>
          rcases succeeds warm rfl with ⟨packs, bundle, distinct⟩
          exact ⟨⟨bundle, packs⟩, distinct⟩
      | error failure =>
          exfalso
          rcases failure with ⟨error, left⟩
          dsimp only at fetched
          split at fetched
          · rename_i same
            cases same
          · rw [run_bind, run_mapError, run_loadChain, loads] at fetched
            simp only [Except.mapError] at fetched
            split at fetched <;> cases fetched
          · cases fetched
  | succ remaining hypothesis =>
      rcases
        @fetchFull_cases _ bucketPrefix ρ ops world refName chain.segments
          chain.fullAt (completions (remaining + 1)) cold with
        ⟨outcome, ran, succeeds, missing⟩
      unfold fetchWithPackMissingRetries at fetched
      rw [run_bind, run_attempt,
        (fetchOnce_cold found isCold (completions _) sha).1, ran] at fetched
      cases outcome with
      | ok warm =>
          rcases succeeds warm rfl with ⟨packs, bundle, distinct⟩
          exact ⟨⟨bundle, packs⟩, distinct⟩
      | error failure =>
          rcases failure with ⟨error, left⟩
          dsimp only at fetched
          split at fetched
          · rename_i same
            cases same
          next key left same =>
            cases same
            cases missing _ _ rfl
            rw [run_bind, run_mapError, run_loadChain, loads] at fetched
            simp only [Except.mapError] at fetched
            split at fetched
            · cases fetched
            · cases fetched
            · exact hypothesis fetched
          · cases fetched

end Found

/-! ## Clones -/

section Cloning

variable
    [Platform]
    {objects : Objects}
    {contents : Contents}
    {bucketPrefix : Option Text}
    {ρ : Type}
    {ops : LocalOps ρ}
    {held : ρ → Set Sha}

/-- A fetch of a reference into a repository at the start of a session. -/
def clone
    (ops : LocalOps ρ)
    (bucketPrefix : Option Text)
    (completions : Nat → Completion)
    (refName : RefName)
    (sha : Sha)
    (cold : ρ)
    (world : World) :
    Except (FetchError × FetchSession ρ) (FetchSession ρ) × World :=
  run answer
    (fetchOne ops bucketPrefix completions refName sha none ⟨cold, [], []⟩)
    world

/-- A clone that succeeds is one of attempts that do. -/
theorem retries_of_clone
    {completions : Nat → Completion}
    {refName : RefName}
    {sha : Sha}
    {cold : ρ}
    {world after : World}
    {session : FetchSession ρ}
    (cloned :
      clone ops bucketPrefix completions refName sha cold world =
        (.ok session, after)) :
    (run answer
        (fetchWithPackMissingRetries ops bucketPrefix completions refName
          sha none packMissingMaxRetries cold)
        world).1 =
      .ok session.repo := by
  unfold clone fetchOne at cloned
  rw [if_neg List.not_mem_nil, run_bind, run_mapError] at cloned
  generalize
    run answer
      (fetchWithPackMissingRetries ops bucketPrefix completions refName sha
        none packMissingMaxRetries cold)
      world = ended at cloned ⊢
  rcases ended with ⟨outcome, left⟩
  cases outcome with
  | ok later =>
      cases cloned
      rfl
  | error failure => cases cloned

/-- What a tip reaches is in the packs of its chain. -/
theorem tip_of_packs
    {chain : ChainManifest}
    (linked : Linked objects contents chain)
    {world : World}
    (stored : Stored objects contents bucketPrefix world)
    {refName : RefName}
    {bundle : Body}
    {packs : List Body}
    (own : Own bucketPrefix refName chain world bundle packs)
    {reached : Set Sha}
    (all :
      ∀ body ∈ packs, ∀ bytes found,
        body = .file bytes →
          contents.packObjects bytes = some found →
            (found : Set Sha) ⊆ reached) :
    objects.reach chain.tip ⊆ reached := by
  intro sha inside
  rcases Option.map_eq_some_iff.1 linked.complete.newest with
    ⟨newest, first, tip⟩
  rw [← tip] at inside
  rcases linked.complete.layered.covers first inside with
    ⟨segment, member, packed⟩
  rcases exists_of_forall₂ own.packs.flip member with
    ⟨body, listed, name, same, there⟩
  rw [packKey_eq] at there
  rcases stored _ _ there with ⟨rfl, readable⟩
  rcases Option.isSome_iff_exists.1 readable with ⟨found, reads⟩
  rw [objectsOf_packKey same, Contents.packed, reads] at packed
  exact all _ listed _ _ rfl reads packed

/-- Of a bucket that stores what it may, what a clone of a chain comes to. -/
theorem clone_of_stored
    (holding : Holding ops contents held)
    (taking : Taking ops contents)
    {world : World}
    (stored : Stored objects contents bucketPrefix world)
    {refName : RefName}
    {chain : ChainManifest}
    (found : world.chain? bucketPrefix refName = some chain)
    (present : Present bucketPrefix refName chain world)
    (distinct : (chain.segments.map ChainSegment.sha).Nodup)
    {cold : ρ}
    (isCold :
      ∀ segment ∈ chain.segments,
        ops.contains cold segment.sha = false)
    (completions : Nat → Completion)
    (sha : Sha) :
    ∃ warm,
      clone ops bucketPrefix completions refName sha cold world =
          (.ok ⟨warm, [sha], []⟩, world) ∧
        objects.reach chain.tip ⊆ held warm := by
  have written := ((World.chain?_eq_some_iff _ _).1 found).1
  rw [chainKey_eq] at written
  have linked : Linked objects contents chain :=
    stored _ _ written chain rfl
  rcases present.exists_own linked.canonical with ⟨bundle, packs, own⟩
  have based := own.bundle
  rw [bundleKey_eq] at based
  rcases stored _ _ based with ⟨bytes, rfl, objects, reads, -⟩
  have readable : ∀ body ∈ packs, Readable contents body := by
    intro body member
    rcases exists_of_forall₂ own.packs member with
      ⟨segment, -, name, -, there⟩
    rw [packKey_eq] at there
    rcases stored _ _ there with ⟨rfl, readable⟩
    rcases Option.isSome_iff_exists.1 readable with ⟨found, reads⟩
    exact ⟨_, found, rfl, reads⟩
  rcases
    installAll_taking holding taking reads
      (fun body member => readable body (List.mem_reverse.1 member))
      cold with
    ⟨warm, installs, -, added⟩
  rcases
    (fetchesEach_of_nodup found distinct own isCold installs completions
      sha).installs with
    ⟨installed, same, ran⟩
  rw [installs] at same
  cases same
  refine ⟨warm, ran, ?_⟩
  apply tip_of_packs linked stored own
  intro body member
  exact added body (List.mem_reverse.2 member)

/--
A chain that honest clients have left, in whatever order and whatever failed,
can be cloned exactly if its baseline and the packs it names are there and no
two of its segments have one name.  The clone has all that its tip reaches.
-/
theorem clones_iff
    {packer : Packer}
    (exact : packer.Exact objects contents)
    (holding : Holding ops contents held)
    (taking : Taking ops contents)
    {ι : Type}
    [DecidableEq ι]
    {plan : FaultPlan Call ObjectStoreError}
    {clock : Int}
    {pool :
      Pool ι Ownership.Command Call Reply Unit Empty (World × Nat)}
    (reached :
      (Ownership.clients bucketPrefix plan ι).Reaches
        (fun pool action =>
          pool.Meets Ownership.Any action ∧
            StartsHonest packer objects contents action)
        (.quiet (.empty clock, 0)) pool)
    {refName : RefName}
    {chain : ChainManifest}
    (found : pool.state.1.chain? bucketPrefix refName = some chain)
    {cold : ρ}
    (isCold :
      ∀ segment ∈ chain.segments,
        ops.contains cold segment.sha = false)
    (completions : Nat → Completion)
    (sha : Sha) :
    ((∃ session after,
        clone ops bucketPrefix completions refName sha cold pool.state.1 =
          (.ok session, after)) ↔
      Present bucketPrefix refName chain pool.state.1 ∧
        (chain.segments.map ChainSegment.sha).Nodup) ∧
    ∀ session after,
      clone ops bucketPrefix completions refName sha cold pool.state.1 =
          (.ok session, after) →
        objects.reach chain.tip ⊆ held session.repo ∧
          after = pool.state.1 := by
  have stored := stored_of_reached exact reached
  have needs
      {session : FetchSession ρ}
      {after : World}
      (cloned :
        clone ops bucketPrefix completions refName sha cold
            pool.state.1 =
          (.ok session, after)) :
      Present bucketPrefix refName chain pool.state.1 ∧
        (chain.segments.map ChainSegment.sha).Nodup :=
    retries_found found isCold (retries_of_clone cloned)
  refine ⟨⟨?_, ?_⟩, ?_⟩
  · rintro ⟨session, after, cloned⟩
    exact needs cloned
  · rintro ⟨present, distinct⟩
    rcases
      clone_of_stored holding taking stored found present distinct isCold
        completions sha with
      ⟨warm, ran, -⟩
    exact ⟨_, _, ran⟩
  · intro session after cloned
    rcases needs cloned with ⟨present, distinct⟩
    rcases
      clone_of_stored holding taking stored found present distinct isCold
        completions sha with
      ⟨warm, ran, has⟩
    rw [ran] at cloned
    cases cloned
    exact ⟨has, rfl⟩

end Cloning

/-! ## A clone after a break -/

section Witness

attribute [local instance] Platform.simple

theorem taking_taking (contents : Contents) :
    Taking (FetchClosure.LocalOps.taking contents) contents where
  unbundleAt := by
    intro repo bytes found reads
    refine ⟨repo ∪ found, ?_⟩
    simp only [FetchClosure.LocalOps.taking, reads]
  installPack := by
    intro repo bytes found reads
    refine ⟨repo ∪ found, ?_⟩
    simp only [FetchClosure.LocalOps.taking, reads]

/-- Whether everything a chain names is there, and each segment once. -/
def whole (chain : ChainManifest) (world : World) : Bool :=
  (world.get? (bundleKey none .main chain.fullAt)).isSome &&
    (chain.segments.all fun segment =>
      (world.get? (packKeyFromRelative none segment.pack)).isSome) &&
    decide (chain.segments.map ChainSegment.sha).Nodup

theorem whole_iff
    {chain : ChainManifest}
    {world : World} :
    whole chain world = true ↔
      Present none .main chain world ∧
        (chain.segments.map ChainSegment.sha).Nodup := by
  unfold whole
  simp only [Bool.and_eq_true, List.all_eq_true, decide_eq_true_eq]
  constructor
  · rintro ⟨⟨bundle, packs⟩, distinct⟩
    exact ⟨⟨bundle, packs⟩, distinct⟩
  · rintro ⟨present, distinct⟩
    exact ⟨⟨present.bundle, present.packs⟩, distinct⟩

theorem clones_iff_brokenOff :
    ∃ pool chain session,
      (Ownership.clients none lostChain Nat).schedule?
          (fun pool => pool.Meets Ownership.Any) brokenOff
          (.quiet (.empty 0, 0)) = some pool ∧
        pool.state.1.chain? none .main = some chain ∧
        clone (FetchClosure.LocalOps.taking .digits) none
            (fun _ => .reversed) .main chain.tip ∅ pool.state.1 =
          (.ok session, pool.state.1) ∧
        smallObjects.reach chain.tip ⊆ (session.repo : Set Sha) := by
  have executed :
      ((Ownership.clients none lostChain Nat).schedule?
          (fun pool => pool.Meets Ownership.Any) brokenOff
          (.quiet (.empty 0, 0))).bind
        (fun pool =>
          (pool.state.1.chain? none .main).map fun chain =>
            whole chain pool.state.1) =
        some true := by
    decide +kernel
  rcases Option.bind_eq_some_iff.1 executed with ⟨pool, reached, known⟩
  rcases Option.map_eq_some_iff.1 known with ⟨chain, found, checked⟩
  have clones :=
    clones_iff (exact_checked smallObjects smallBound)
      (FetchClosure.holding_taking .digits) (taking_taking .digits)
      (System.Reaches.refl.scheduled startsHonest_brokenOff reached) found
      (by
        intro segment _
        exact decide_eq_false (Finset.notMem_empty segment.sha))
      (fun _ => .reversed) chain.tip
  rcases clones.1.2 (whole_iff.1 checked) with
    ⟨session, after, cloned⟩
  rcases clones.2 session after cloned with ⟨has, rfl⟩
  exact ⟨pool, chain, session, reached, found, cloned, has⟩

end Witness

end GitRemoteObjectStore.Clones
