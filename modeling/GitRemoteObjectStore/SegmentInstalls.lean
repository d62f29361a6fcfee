import GitRemoteObjectStore.FetchRuns
import GitRemoteObjectStore.PushedRepository

/-!
# Each segment is installed

A full fetch into a repository that has nothing of a chain, and a
compaction, download every pack the chain names and install them oldest
first.  Both find a downloaded pack by the name of its segment.  Two
segments of one chain may have the same name: a reference may go from one
tag of a commit to another and back.  Then a fetch takes the path of one of
them, misses that of the other and fails, and a compaction installs one pack
twice.
-/

namespace GitRemoteObjectStore.Packchain

open CallProgram Prog Arrivals

section Buckets

variable
    [Platform]
    {bucketPrefix : Option Text}
    {ρ : Type}
    {ops : LocalOps ρ}

/-- One request for each pack a chain names, and one for its baseline. -/
def ownRequests
    (bucketPrefix : Option Text)
    (refName : RefName)
    (chain : ChainManifest) : List Call :=
  chain.segments.map
      (fun segment =>
        Call.get (packKeyFromRelative bucketPrefix segment.pack)) ++
    [.get (bundleKey bucketPrefix refName chain.fullAt)]

/-- The baseline bundle and the packs a chain names, newest first. -/
structure Own
    (bucketPrefix : Option Text)
    (refName : RefName)
    (chain : ChainManifest)
    (world : World)
    (bundle : Body)
    (packs : List Body) : Prop where
  bundle :
    world.body? (bundleKey bucketPrefix refName chain.fullAt) = some bundle
  packs : List.Forall₂ (Holds bucketPrefix world) chain.segments packs

/-- The bucket has everything an intact chain names. -/
theorem Intact.exists_own
    {refName : RefName}
    {chain : ChainManifest}
    {world : World}
    (intact : Intact bucketPrefix refName world chain) :
    ∃ bundle packs, Own bucketPrefix refName chain world bundle packs := by
  have bundled :
      ∃ bundle,
        world.body? (bundleKey bucketPrefix refName chain.fullAt) =
          some bundle := by
    rcases Option.isSome_iff_exists.1 intact.baseline with
      ⟨object, found⟩
    exact ⟨object.body, by rw [World.body?, found]; rfl⟩
  have packed :
      ∃ packs,
        List.Forall₂ (Holds bucketPrefix world) chain.segments packs := by
    have each := intact.packs
    generalize chain.segments = segments at each ⊢
    induction segments with
    | nil => exact ⟨[], .nil⟩
    | cons segment older hypothesis =>
        rcases each segment List.mem_cons_self with
          ⟨sha, same, present, -⟩
        rcases Option.isSome_iff_exists.1 present with ⟨object, found⟩
        rcases
          hypothesis fun other member =>
            each other (List.mem_cons_of_mem _ member) with
          ⟨packs, rest⟩
        refine ⟨object.body :: packs, .cons ⟨sha, same, ?_⟩ rest⟩
        rw [World.body?, found]
        rfl
  rcases bundled with ⟨bundle, foundBundle⟩
  rcases packed with ⟨packs, foundPacks⟩
  exact ⟨bundle, packs, foundBundle, foundPacks⟩

/-! ## Fetches -/

/--
A full fetch installs the baseline and each segment's own pack, oldest
first, requesting each once.
-/
structure FetchesEach
    (ops : LocalOps ρ)
    (bucketPrefix : Option Text)
    (completions : Nat → Completion)
    (refName : RefName)
    (chain : ChainManifest)
    (sha : Sha)
    (cold : ρ)
    (world : World)
    (bundle : Body)
    (packs : List Body) : Prop where
  installs :
    ∃ warm,
      installAll ops bundle packs.reverse cold = .ok warm ∧
        run answer
            (fetchOne ops bucketPrefix completions refName sha none
              ⟨cold, [], []⟩)
            world =
          (.ok ⟨warm, [sha], []⟩, world)
  requests :
    (issued answer
        (fetchOne ops bucketPrefix completions refName sha none
          ⟨cold, [], []⟩)
        world).Perm
      (.get (chainKey bucketPrefix refName) ::
        ownRequests bucketPrefix refName chain)

/-- A fetch whose first attempt succeeds. -/
theorem run_fetchOne_of_fetchOnce
    {completions : Nat → Completion}
    {refName : RefName}
    {sha : Sha}
    {cold warm : ρ}
    {world : World}
    (fetched :
      run answer
          (fetchOnce ops bucketPrefix (completions packMissingMaxRetries)
            refName sha none cold)
          world =
        (.ok warm, world)) :
    run answer
          (fetchOne ops bucketPrefix completions refName sha none
            ⟨cold, [], []⟩)
          world =
        (.ok ⟨warm, [sha], []⟩, world) ∧
      issued answer
          (fetchOne ops bucketPrefix completions refName sha none
            ⟨cold, [], []⟩)
          world =
        issued answer
          (fetchOnce ops bucketPrefix (completions packMissingMaxRetries)
            refName sha none cold)
          world := by
  have attempted :
      run answer
            (fetchWithPackMissingRetries ops bucketPrefix completions
              refName sha none packMissingMaxRetries cold)
            world =
          (.ok warm, world) ∧
        issued answer
            (fetchWithPackMissingRetries ops bucketPrefix completions
              refName sha none packMissingMaxRetries cold)
            world =
          issued answer
            (fetchOnce ops bucketPrefix
              (completions packMissingMaxRetries) refName sha none cold)
            world := by
    unfold fetchWithPackMissingRetries
    constructor
    · rw [run_bind, run_attempt, fetched]
      rfl
    · rw [issued_bind, issued_attempt, run_attempt, fetched]
      exact List.append_nil _
  unfold fetchOne
  constructor
  · simp only [List.not_mem_nil, if_false, run_bind, run_mapError,
      attempted.1, Except.mapError]
    rfl
  · simp only [List.not_mem_nil, if_false, issued_bind, issued_mapError,
      run_mapError, attempted.1, attempted.2, Except.mapError]
    exact List.append_nil _

/-- A chain of differently named segments is fetched as it should be. -/
theorem fetchesEach_of_nodup
    {refName : RefName}
    {chain : ChainManifest}
    {world : World}
    (found : world.chain? bucketPrefix refName = some chain)
    (distinct : (chain.segments.map ChainSegment.sha).Nodup)
    {bundle : Body}
    {packs : List Body}
    (own : Own bucketPrefix refName chain world bundle packs)
    {cold warm : ρ}
    (isCold :
      ∀ segment ∈ chain.segments,
        ops.contains cold segment.sha = false)
    (installs : installAll ops bundle packs.reverse cold = .ok warm)
    (completions : Nat → Completion)
    (sha : Sha) :
    FetchesEach ops bucketPrefix completions refName chain sha cold world
      bundle packs := by
  rcases
    fetchOnce_cold found isCold (completions packMissingMaxRetries)
      sha with
    ⟨ran, requested⟩
  rw [run_fetchFull distinct own.packs own.bundle, installs] at ran
  rcases run_fetchOne_of_fetchOnce ran with ⟨fetched, same⟩
  refine ⟨⟨warm, installs, fetched⟩, ?_⟩
  rw [same, requested]
  exact (issued_fetchFull own.packs _ _).cons _

/-- A fetch that succeeds has found its segments differently named. -/
theorem nodup_of_run_fetchOne
    {refName : RefName}
    {chain : ChainManifest}
    {world later : World}
    (found : world.chain? bucketPrefix refName = some chain)
    {bundle : Body}
    {packs : List Body}
    (own : Own bucketPrefix refName chain world bundle packs)
    {cold : ρ}
    (isCold :
      ∀ segment ∈ chain.segments,
        ops.contains cold segment.sha = false)
    {completions : Nat → Completion}
    {sha : Sha}
    {session : FetchSession ρ}
    (fetched :
      run answer
          (fetchOne ops bucketPrefix completions refName sha none
            ⟨cold, [], []⟩)
          world =
        (.ok session, later)) :
    (chain.segments.map ChainSegment.sha).Nodup := by
  rcases
    run_fetchFull_stored own.packs own.bundle
      (completions packMissingMaxRetries) cold with
    ⟨drained, ran⟩
  have attempt :=
    (fetchOnce_cold found isCold (completions packMissingMaxRetries)
      sha).1
  rw [ran] at attempt
  cases installed :
      installDrained ops cold drained chain.segments with
  | ok warm => exact nodup_of_installDrained installed
  | error failure =>
      rcases failure with ⟨error, left⟩
      exfalso
      rw [installed] at attempt
      have failed :
          run answer
              (fetchWithPackMissingRetries ops bucketPrefix completions
                refName sha none packMissingMaxRetries cold)
              world =
            (.error (error, left), world) := by
        have other := installDrained_ne_packMissing installed
        unfold fetchWithPackMissingRetries
        rw [run_bind, run_attempt, attempt]
        cases error with
        | packchain cause =>
            cases cause with
            | packMissing key => exact absurd rfl (other key)
            | _ => rfl
        | _ => rfl
      unfold fetchOne at fetched
      simp only [List.not_mem_nil, if_false, run_bind, run_mapError,
        failed, Except.mapError] at fetched
      cases fetched

/-! ## Compactions -/

/--
A compaction installs the baseline and each segment's own pack, oldest
first, requesting each once, and ends without an error.
-/
structure CompactsEach
    (bucketPrefix : Option Text)
    (scratch : Scratch)
    (refName : RefName)
    (chain : ChainManifest)
    (world : World)
    (bundle : Body)
    (packs : List Body) : Prop where
  installs :
    ∃ directory repo,
      downloaded bucketPrefix scratch.completion refName chain world =
          .ok directory ∧
        installChainIntoRepo scratch directory chain = .ok repo ∧
          scratch.install bundle packs.reverse = .ok repo
  ends :
    ∃ result,
      (run answer (compactUnderLock bucketPrefix scratch refName)
        world).1 = .ok result
  requests :
    (issued answer
        (downloadChainArtefacts bucketPrefix scratch.completion refName
          chain)
        world).Perm
      (ownRequests bucketPrefix refName chain)

/-- The scratch repository answers what a compaction asks it. -/
structure Rebuilds (repo : LocalRepo) (tip : Sha) : Prop where
  answers :
    ∃ peeled pack pathIndex bundle,
      repo.peelTagChain tip = .ok peeled ∧
        repo.buildBaselinePack peeled = .ok pack ∧
        repo.extractPathIndex peeled tip = .ok pathIndex ∧
        repo.bundleAt tip tip.text = .ok bundle

/-- The task of a segment's download. -/
def packTask
    (bucketPrefix : Option Text)
    (segment : ChainSegment) : DownloadTask :=
  ⟨packKeyFromRelative bucketPrefix segment.pack, .pack segment.sha⟩

/-- The task of the baseline's download. -/
def bundleTask
    (bucketPrefix : Option Text)
    (refName : RefName)
    (sha : Sha) : DownloadTask :=
  ⟨bundleKey bucketPrefix refName sha, .bundle sha⟩

/-- What is stored at the key of a task. -/
def DownloadTask.body (world : World) (task : DownloadTask) : Body :=
  (world.body? task.key).getD (.text [])

theorem downloadTasks_eq
    {refName : RefName}
    {chain : ChainManifest}
    {world : World}
    {packs : List Body}
    (stored :
      List.Forall₂ (Holds bucketPrefix world) chain.segments packs) :
    downloadTasks bucketPrefix refName chain =
      .ok
        (chain.segments.map (packTask bucketPrefix) ++
          [bundleTask bucketPrefix refName chain.fullAt]) := by
  have each :
      chain.segments.mapM (segmentTask bucketPrefix) =
        .ok (chain.segments.map (packTask bucketPrefix)) := by
    apply mapM_eq_ok.2
    rw [List.forall₂_map_right_iff, List.forall₂_same]
    intro segment member
    rcases exists_of_forall₂ stored.flip member with
      ⟨body, -, sha, same, -⟩
    unfold segmentTask segmentPackSha
    rw [same, shaFromPackKey_packKey]
    unfold packTask
    rw [same]
    rfl
  unfold downloadTasks
  rw [each]
  rfl

omit [Platform] in
/-- Downloads that find their objects are collected. -/
theorem foldlM_fetched
    {world : World}
    {tasks : List DownloadTask}
    (present :
      ∀ task ∈ tasks,
        world.body? task.key = some (DownloadTask.body world task))
    (before : Directory) :
    tasks.foldlM
        (fun (directory : Directory) task => do
          let body ← fetched world task.key
          return directory.insert task.dest body)
        before =
      .ok
        (collectOnto DownloadTask.dest (DownloadTask.body world) before
          tasks) := by
  induction tasks generalizing before with
  | nil => rfl
  | cons task rest hypothesis =>
      rw [List.foldlM_cons]
      simp only [fetched, present task List.mem_cons_self, Bind.bind,
        Except.bind, Pure.pure, Except.pure]
      exact
        hypothesis
          (fun other member =>
            present other (List.mem_cons_of_mem _ member))
          _

section Compaction

variable
    {refName : RefName}
    {chain : ChainManifest}
    {world : World}
    {bundle : Body}
    {packs : List Body}

theorem present_tasks
    (own : Own bucketPrefix refName chain world bundle packs)
    {task : DownloadTask}
    (member :
      task ∈
        chain.segments.map (packTask bucketPrefix) ++
          [bundleTask bucketPrefix refName chain.fullAt]) :
    world.body? task.key = some (DownloadTask.body world task) := by
  unfold DownloadTask.body
  rcases List.mem_append.1 member with inside | last
  · rcases List.mem_map.1 inside with ⟨segment, segmentInside, rfl⟩
    rcases exists_of_forall₂ own.packs.flip segmentInside with
      ⟨body, -, sha, same, found⟩
    simp only [packTask, same, packKeyFromRelative_packKey, found,
      Option.getD_some]
  · rw [List.mem_singleton.1 last]
    simp only [bundleTask, own.bundle, Option.getD_some]

/-- What a compaction of a stored chain has downloaded. -/
theorem downloaded_eq
    (own : Own bucketPrefix refName chain world bundle packs)
    (completion : Completion) :
    downloaded bucketPrefix completion refName chain world =
      .ok
        (collect DownloadTask.dest (DownloadTask.body world)
          (completion.arrange
            (chain.segments.map (packTask bucketPrefix) ++
              [bundleTask bucketPrefix refName chain.fullAt]))) := by
  unfold downloaded
  rw [downloadTasks_eq own.packs]
  exact
    foldlM_fetched
      (fun task member =>
        present_tasks own (Completion.mem_arrange.1 member))
      ∅

theorem issued_downloadChainArtefacts
    (own : Own bucketPrefix refName chain world bundle packs)
    (completion : Completion) :
    (issued answer
        (downloadChainArtefacts bucketPrefix completion refName chain)
        world).Perm
      (ownRequests bucketPrefix refName chain) := by
  unfold downloadChainArtefacts
  rw [downloadTasks_eq own.packs]
  simp only [Prog.ofExcept, done_bind]
  rw [issued_foldEach_pure
    (fun (directory : Directory) (task : DownloadTask) =>
      directory.insert task.dest (DownloadTask.body world task))
    (fun task : DownloadTask => Call.get task.key)]
  · have permuted :=
      (completion.arrange_perm
          (chain.segments.map (packTask bucketPrefix) ++
            [bundleTask bucketPrefix refName chain.fullAt])).map
        fun task => Call.get task.key
    rw [List.map_append, List.map_map] at permuted
    exact permuted
  · intro directory task member
    rw [run_bind, run_getToFile]
    simp only [fetched,
      present_tasks own (Completion.mem_arrange.1 member)]
    rfl
  · intro directory task member
    rw [issued_bind, run_getToFile, issued_mapError]
    simp only [fetched,
      present_tasks own (Completion.mem_arrange.1 member)]
    simp only [Store.getToFile, issued, issued_ofExcept]
    rfl

/-- Differently named segments have the files they should. -/
theorem installChainIntoRepo_eq
    (distinct : (chain.segments.map ChainSegment.sha).Nodup)
    (own : Own bucketPrefix refName chain world bundle packs)
    (scratch : Scratch) :
    installChainIntoRepo scratch
        (collect DownloadTask.dest (DownloadTask.body world)
          (scratch.completion.arrange
            (chain.segments.map (packTask bucketPrefix) ++
              [bundleTask bucketPrefix refName chain.fullAt])))
        chain =
      scratch.install bundle packs.reverse := by
  have names :
      ((scratch.completion.arrange
          (chain.segments.map (packTask bucketPrefix) ++
            [bundleTask bucketPrefix refName chain.fullAt])).map
        DownloadTask.dest).Nodup := by
    apply
      ((scratch.completion.arrange_perm _).map
        DownloadTask.dest).nodup_iff.2
    rw [List.map_append, List.map_map, List.nodup_append]
    refine ⟨?_, by simp, ?_⟩
    · have composed :
          DownloadTask.dest ∘ packTask bucketPrefix =
            FileName.pack ∘ ChainSegment.sha :=
        rfl
      rw [composed, ← List.map_map]
      exact
        distinct.map fun left right same => by
          cases same
          rfl
    · intro left leftMember right rightMember same
      rcases List.mem_map.1 leftMember with ⟨segment, -, rfl⟩
      rw [List.map_singleton, List.mem_singleton] at rightMember
      rw [rightMember] at same
      cases same
  have reading
      {task : DownloadTask}
      (member :
        task ∈
          chain.segments.map (packTask bucketPrefix) ++
            [bundleTask bucketPrefix refName chain.fullAt]) :
      Directory.read
          (collect DownloadTask.dest (DownloadTask.body world)
            (scratch.completion.arrange
              (chain.segments.map (packTask bucketPrefix) ++
                [bundleTask bucketPrefix refName chain.fullAt])))
          task.dest =
        .ok (DownloadTask.body world task) := by
    unfold Directory.read
    rw [lookup_collect names (Completion.mem_arrange.2 member)]
  have bundled :
      DownloadTask.body world
          (bundleTask bucketPrefix refName chain.fullAt) =
        bundle := by
    simp only [DownloadTask.body, bundleTask, own.bundle,
      Option.getD_some]
  have based :=
    @reading (bundleTask bucketPrefix refName chain.fullAt) (by simp)
  have packed :
      chain.segments.reverse.mapM
          (fun segment =>
            Directory.read
              (collect DownloadTask.dest (DownloadTask.body world)
                (scratch.completion.arrange
                  (chain.segments.map (packTask bucketPrefix) ++
                    [bundleTask bucketPrefix refName chain.fullAt])))
              (.pack segment.sha)) =
        .ok packs.reverse := by
    apply mapM_eq_ok.2
    apply List.forall₂_reverse_iff.2
    apply
      ((List.forall₂_and_left _ _).2
        ⟨fun segment inside => inside, own.packs⟩).imp
    rintro segment body ⟨inside, sha, same, found⟩
    have read :=
      @reading (packTask bucketPrefix segment)
        (List.mem_append_left _ (List.mem_map_of_mem inside))
    refine read.trans ?_
    simp only [DownloadTask.body, packTask, same,
      packKeyFromRelative_packKey, found, Option.getD_some]
  unfold installChainIntoRepo
  rw [bundled] at based
  change
    (Directory.read _ (.bundle chain.fullAt) >>= fun bundle =>
        chain.segments.reverse.mapM _ >>= fun packs =>
          scratch.install bundle packs) =
      _
  rw [packed]
  exact congrArg (fun read => read >>= fun bundle => scratch.install bundle packs.reverse) based

/-- A chain of differently named segments is compacted as it should be. -/
theorem compactsEach_of_nodup
    (found : world.chain? bucketPrefix refName = some chain)
    (distinct : (chain.segments.map ChainSegment.sha).Nodup)
    (own : Own bucketPrefix refName chain world bundle packs)
    {scratch : Scratch}
    {repo : LocalRepo}
    (installs : scratch.install bundle packs.reverse = .ok repo)
    (rebuilds : Rebuilds repo chain.tip) :
    CompactsEach bucketPrefix scratch refName chain world bundle
      packs := by
  have fetches := downloaded_eq own scratch.completion
  have installed := installChainIntoRepo_eq distinct own scratch
  rw [installs] at installed
  refine
    ⟨⟨_, repo, fetches, installed, installs⟩, ?_,
      issued_downloadChainArtefacts own scratch.completion⟩
  rcases rebuilds.answers with
    ⟨peeled, pack, pathIndex, rebundled, peels, packed, indexed,
      bundled⟩
  have builds :
      rebuild scratch chain
          (collect DownloadTask.dest (DownloadTask.body world)
            (scratch.completion.arrange
              (chain.segments.map (packTask bucketPrefix) ++
                [bundleTask bucketPrefix refName chain.fullAt]))) =
        .ok (pack, pathIndex, rebundled) :=
    rebuild_ok.2
      ⟨repo, peeled, installed, peels, packed, indexed, bundled⟩
  refine ⟨(pack.contentSha, pack.packBytes), ?_⟩
  rw [run_compactUnderLock_of_rebuild
    (loadedChain_of_chain? _ _ found) fetches builds]

end Compaction

/-! ## Chains that have been pushed -/

/-- Git takes what a chain names, oldest first, in both repositories. -/
def Installable
    (ops : LocalOps ρ)
    (bucketPrefix : Option Text)
    (scratch : Scratch)
    (refName : RefName)
    (chain : ChainManifest)
    (cold : ρ)
    (world : World) : Prop :=
  ∀ bundle packs, Own bucketPrefix refName chain world bundle packs →
    ∃ warm repo,
      installAll ops bundle packs.reverse cold = .ok warm ∧
        scratch.install bundle packs.reverse = .ok repo ∧
          Rebuilds repo chain.tip

/--
Of a chain that pushes have left, a cold fetch and a compaction install every
segment's own pack, oldest first, exactly when no two of its segments have
one name.
-/
theorem segments_installed_iff
    {ι : Type}
    [DecidableEq ι]
    {clock : Int}
    {pool :
      Pool ι (Command IsPush) Call Reply Unit (RefName × Task) World}
    (reached :
      (repository IsPush bucketPrefix ι).Reaches
        (fun _ action => action.Whole) (.quiet (.empty clock)) pool)
    {refName : RefName}
    {chain : ChainManifest}
    (found : pool.state.chain? bucketPrefix refName = some chain)
    (completions : Nat → Completion)
    (scratch : Scratch)
    (sha : Sha)
    (cold : ρ)
    (isCold :
      ∀ segment ∈ chain.segments,
        ops.contains cold segment.sha = false)
    (installable :
      Installable ops bucketPrefix scratch refName chain cold pool.state) :
    (∃ bundle packs,
      Own bucketPrefix refName chain pool.state bundle packs ∧
        FetchesEach ops bucketPrefix completions refName chain sha cold
          pool.state bundle packs ∧
        CompactsEach bucketPrefix scratch refName chain pool.state bundle
          packs) ↔
      (chain.segments.map ChainSegment.sha).Nodup := by
  constructor
  · rintro ⟨bundle, packs, own, fetches, -⟩
    rcases fetches.installs with ⟨warm, -, fetched⟩
    exact nodup_of_run_fetchOne found own isCold fetched
  · intro distinct
    rcases (stocked_of_reached reached refName chain found).exists_own
      with ⟨bundle, packs, own⟩
    rcases installable bundle packs own with
      ⟨warm, repo, installs, rebuilt, rebuilds⟩
    exact
      ⟨bundle, packs, own,
        fetchesEach_of_nodup found distinct own isCold installs
          completions sha,
        compactsEach_of_nodup found distinct own rebuilt rebuilds⟩

end Buckets

/-! ## Schedules -/

section Schedules

attribute [local instance] Platform.simple

/-- The one commit of the tagged history. -/
def taggedCommit : Sha :=
  digitSha 'c' hex_c

/--
A repository of one commit and a tag of it for each hex digit.  A pack with
a tag in it is named like the tag, and holds one byte of the name.
-/
def taggedRepo : LocalRepo :=
  { LocalRepo.linear with
    peelTagChain := fun tip => .ok (.commit taggedCommit [tip])
    bundleAt := fun _ _ => .ok [0]
    buildBaselinePack := fun _ => .ok ⟨taggedCommit, 1, [1], []⟩
    buildIncrementalPack := fun _ commit tagChain =>
      let tip := tagChain.headD commit
      .ok ⟨tip, 1, tip.text.take 1 |>.map fun char => char.toUInt8, []⟩
    treeId := fun _ => .ok taggedCommit }

/-- A compaction in a clone of the tagged history. -/
def Scratch.tagged : Scratch where
  completion := .inOrder
  install := fun _ _ => .ok taggedRepo

/-- A local repository that lists what it has installed. -/
def LocalOps.listing : LocalOps (List Body) where
  contains := fun _ _ => false
  unbundleAt := fun installed body => .ok (installed ++ [body])
  installPack := fun installed body => .ok (installed ++ [body])
  shallowBoundaries := fun _ _ _ => .ok []

theorem installAll_listing
    (bundle : Body)
    (packs installed : List Body) :
    installAll .listing bundle packs installed =
      .ok (installed ++ [bundle] ++ packs) := by
  have packed (present : List Body) :
      installPacks .listing packs present = .ok (present ++ packs) := by
    induction packs generalizing present with
    | nil =>
        rw [List.append_nil]
        rfl
    | cons body rest hypothesis =>
        rw [installPacks, List.foldlM_cons]
        exact
          (hypothesis (present ++ [body])).trans
            (by rw [List.append_assoc, List.singleton_append])
  exact packed (installed ++ [bundle])

/-- A push of one tag of the tagged history. -/
def pushOf (localSpec : Text) (named : localSpec ≠ []) :
    Command IsPush where
  refName := .main
  operation := .push taggedRepo false localSpec
  allowed := named

/-- What a file has in it. -/
def contentOf : Option Body → List UInt8
  | some (.file content) => content
  | _ => []

/-- A push of one tag, from its start to its end. -/
def pushing
    (localSpec : Text)
    (named : localSpec ≠ [])
    (calls : Nat) : List (Action Nat (Command IsPush)) :=
  .start 0 (pushOf localSpec named) ::
    Action.calls 0 calls ++ [.settle 0, .atomic 0]

/-- One tag is pushed, then another. -/
def pushedTwo : List (Action Nat (Command IsPush)) :=
  pushing ['1'] (by decide) 4 ++ pushing ['2'] (by decide) 3

/-- One tag is pushed, then another, then the first one again. -/
def pushedBack : List (Action Nat (Command IsPush)) :=
  pushedTwo ++ pushing ['1'] (by decide) 3

theorem installable_tagged
    (chain : ChainManifest)
    (world : World) :
    Installable .listing none .tagged .main chain [] world := by
  intro bundle packs _
  exact
    ⟨[bundle] ++ packs.reverse, taggedRepo, installAll_listing .., rfl,
      ⟨_, _, _, _, rfl, rfl, rfl, rfl⟩⟩

theorem segments_installed_pushedTwo :
    ∃ pool chain bundle packs,
      (repository IsPush none Nat).schedule?
          (fun _ action => action.Whole) pushedTwo
          (.quiet (.empty 0)) = some pool ∧
        pool.state.chain? none .main = some chain ∧
        chain.segments.length = 2 ∧
        Own none .main chain pool.state bundle packs ∧
        FetchesEach .listing none (fun _ => .reversed) .main chain
          chain.tip [] pool.state bundle packs ∧
        CompactsEach none .tagged .main chain pool.state bundle packs := by
  have executed :
      ((repository IsPush none Nat).schedule?
          (fun _ action => action.Whole) pushedTwo
          (.quiet (.empty 0))).bind
        (fun pool =>
          (pool.state.chain? none .main).map fun chain =>
            (chain.segments.length,
              decide (chain.segments.map ChainSegment.sha).Nodup)) =
        some (2, true) := by
    decide +kernel
  rcases Option.bind_eq_some_iff.1 executed with ⟨pool, reached, known⟩
  rcases Option.map_eq_some_iff.1 known with ⟨chain, found, facts⟩
  rcases Prod.mk.inj facts with ⟨length, distinct⟩
  rcases
    (segments_installed_iff
      (System.Reaches.refl.schedule reached) found (fun _ => .reversed)
      .tagged chain.tip [] (fun _ _ => rfl)
      (installable_tagged chain pool.state)).2
      (of_decide_eq_true distinct) with
    ⟨bundle, packs, own, fetches, compacts⟩
  exact
    ⟨pool, chain, bundle, packs, reached, found, length, own, fetches,
      compacts⟩

/--
After the first tag has been pushed again, a cold fetch fails, and what a
compaction installs for the newest segment is the pack of the oldest.
-/
theorem segments_not_installed_pushedBack :
    ∃ pool chain,
      (repository IsPush none Nat).schedule?
          (fun _ action => action.Whole) pushedBack
          (.quiet (.empty 0)) = some pool ∧
        pool.state.chain? none .main = some chain ∧
        Installable .listing none .tagged .main chain [] pool.state ∧
        (run answer
          (fetchOne .listing none (fun _ => .inOrder) .main chain.tip
            none ⟨[], [], []⟩)
          pool.state).1.isOk = false ∧
        ((downloaded none .inOrder .main chain pool.state).toOption.map
          fun directory =>
            chain.segments.map fun segment =>
              (contentOf
                  (pool.state.body?
                    (packKeyFromRelative none segment.pack)),
                contentOf (directory.lookup (.pack segment.sha)))) =
          some [([49], [1]), ([50], [50]), ([1], [1])] ∧
        ¬ ∃ bundle packs,
          Own none .main chain pool.state bundle packs ∧
            FetchesEach .listing none (fun _ => .inOrder) .main chain
              chain.tip [] pool.state bundle packs ∧
            CompactsEach none .tagged .main chain pool.state bundle
              packs := by
  have executed :
      ((repository IsPush none Nat).schedule?
          (fun _ action => action.Whole) pushedBack
          (.quiet (.empty 0))).bind
        (fun pool =>
          (pool.state.chain? none .main).map fun chain =>
            ((run answer
                (fetchOne .listing none (fun _ => .inOrder) .main
                  chain.tip none ⟨[], [], []⟩)
                pool.state).1.isOk,
              (downloaded none .inOrder .main chain
                pool.state).toOption.map fun directory =>
                  chain.segments.map fun segment =>
                    (contentOf
                        (pool.state.body?
                          (packKeyFromRelative none segment.pack)),
                      contentOf
                        (directory.lookup (.pack segment.sha))))) =
        some (false, some [([49], [1]), ([50], [50]), ([1], [1])]) := by
    decide +kernel
  rcases Option.bind_eq_some_iff.1 executed with ⟨pool, reached, known⟩
  rcases Option.map_eq_some_iff.1 known with ⟨chain, found, facts⟩
  rcases Prod.mk.inj facts with ⟨fails, files⟩
  refine
    ⟨pool, chain, reached, found, installable_tagged chain pool.state,
      fails, files, ?_⟩
  rintro ⟨bundle, packs, -, fetches, -⟩
  rcases fetches.installs with ⟨warm, -, fetched⟩
  rw [fetched] at fails
  cases fails

end Schedules

end GitRemoteObjectStore.Packchain
