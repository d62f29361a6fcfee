import GitRemoteObjectStore.Fetch
import GitRemoteObjectStore.PackchainSections

/-!
# Fault-free runs of a fetch

What a fetch downloads and installs when no other client acts and no call
fails, and which calls it issues.
-/

namespace GitRemoteObjectStore.Packchain

open CallProgram Prog Arrivals

variable [Platform] {bucketPrefix : Option Text}

/-! ## Downloads -/

/-- What a download gives. -/
def SpawnedDownload.obtained
    (download : SpawnedDownload)
    (world : World) : Except FetchError Body :=
  match world.body? download.key, download.artifact with
  | some body, _ => .ok body
  | none, .segment _ _ => .error (.packchain (.packMissing download.key))
  | none, .baseline _ _ =>
      .error (.packchain (.baselineMissing download.key))

theorem run_downloadPack (key : Text) (world : World) :
    run answer (downloadPack key) world =
      (match world.body? key with
        | some body => .ok body
        | none => .error (.packchain (.packMissing key)),
        world) := by
  unfold downloadPack World.body?
  cases found : world.get? key with
  | none => simp [Store.getToFile, answer, found, Prog.ofExcept]
  | some object => simp [Store.getToFile, answer, found, Prog.ofExcept]

theorem run_downloadBaseline (key : Text) (world : World) :
    run answer (downloadBaseline key) world =
      (match world.body? key with
        | some body => .ok body
        | none => .error (.packchain (.baselineMissing key)),
        world) := by
  unfold downloadBaseline World.body?
  cases found : world.get? key with
  | none => simp [Store.getToFile, answer, found, Prog.ofExcept]
  | some object => simp [Store.getToFile, answer, found, Prog.ofExcept]

theorem SpawnedDownload.run_fetch
    (download : SpawnedDownload)
    (world : World) :
    run answer download.fetch world =
      (download.obtained world, world) := by
  rcases download with ⟨key, dest, artifact⟩
  unfold fetch obtained
  cases artifact with
  | segment sha path =>
      simp only [run_downloadPack]
      cases world.body? key <;> rfl
  | baseline sha path =>
      simp only [run_downloadBaseline]
      cases world.body? key <;> rfl

theorem SpawnedDownload.issued_fetch
    (download : SpawnedDownload)
    (world : World) :
    issued answer download.fetch world = [.get download.key] := by
  rcases download with ⟨key, dest, artifact⟩
  unfold fetch
  cases artifact with
  | segment sha path =>
      simp only [downloadPack, Store.getToFile, attempt_call, call_bind,
        issued]
      generalize (answer (.get key) world).1 = reply
      rcases reply with (_ | _) | _ <;> rfl
  | baseline sha path =>
      simp only [downloadBaseline, Store.getToFile, attempt_call,
        call_bind, issued]
      generalize (answer (.get key) world).1 = reply
      rcases reply with (_ | _) | _ <;> rfl

/-- What is there once all downloads have completed. -/
def drained
    (world : World)
    (downloads : List SpawnedDownload) : DrainedDownloads :=
  downloads.foldl
    (fun drained download =>
      drained.join download (download.obtained world))
    .start

theorem run_drainFullDownloads
    {ε : Type}
    (downloads : List SpawnedDownload)
    (world : World) :
    run answer (drainFullDownloads downloads : Program ε _) world =
      (.ok (drained world downloads), world) := by
  unfold drainFullDownloads drained
  apply run_foldEach_pure
  intro drained download _
  rw [run_bind, run_attempt, download.run_fetch]
  rfl

theorem issued_drainFullDownloads
    {ε : Type}
    (downloads : List SpawnedDownload)
    (world : World) :
    issued answer (drainFullDownloads downloads : Program ε _) world =
      downloads.map fun download => .get download.key := by
  unfold drainFullDownloads
  apply
    issued_foldEach_pure fun drained (download : SpawnedDownload) =>
      drained.join download (download.obtained world)
  · intro drained download _
    rw [run_bind, run_attempt, download.run_fetch]
    rfl
  · intro drained download _
    rw [issued_bind, issued_attempt, run_attempt, download.run_fetch,
      download.issued_fetch]
    rfl

/-- The name and the path of a segment's pack. -/
def DownloadedArtifact.segment? :
    DownloadedArtifact → Option (Sha40 × FileName)
  | .segment sha path => some (sha, path)
  | .baseline _ _ => none

/-- The name and the path of a baseline bundle. -/
def DownloadedArtifact.baseline? :
    DownloadedArtifact → Option (Sha × FileName)
  | .segment _ _ => none
  | .baseline sha path => some (sha, path)

/-- The paths of the downloaded segments. -/
def segmentPaths
    (downloads : List SpawnedDownload) : List (Sha40 × FileName) :=
  downloads.filterMap fun download => download.artifact.segment?

/-- The downloaded baselines. -/
def baselinePaths
    (downloads : List SpawnedDownload) : List (Sha × FileName) :=
  downloads.filterMap fun download => download.artifact.baseline?

omit [Platform] in
/-- Completed downloads are collected, each in its place. -/
theorem foldl_join
    {world : World}
    {body : SpawnedDownload → Body}
    {downloads : List SpawnedDownload}
    (present :
      ∀ download ∈ downloads,
        world.body? download.key = some (body download))
    (before : DrainedDownloads) :
    downloads.foldl
        (fun drained download =>
          drained.join download (download.obtained world))
        before =
      { files :=
          collectOnto SpawnedDownload.dest body before.files downloads
        segments :=
          collectOnto Prod.fst Prod.snd before.segments
            (segmentPaths downloads)
        baseline :=
          (baselinePaths downloads).getLast?.or before.baseline
        firstErr := before.firstErr } := by
  induction downloads generalizing before with
  | nil => rfl
  | cons download rest hypothesis =>
      have obtained : download.obtained world = .ok (body download) := by
        unfold SpawnedDownload.obtained
        rw [present download List.mem_cons_self]
      rw [List.foldl_cons, obtained,
        hypothesis fun other member =>
          present other (List.mem_cons_of_mem _ member)]
      rcases download with ⟨key, dest, artifact⟩
      cases artifact with
      | segment sha path => rfl
      | baseline sha path =>
          simp only [DrainedDownloads.join, segmentPaths, baselinePaths,
            collectOnto, List.foldl_cons, List.filterMap_cons,
            DownloadedArtifact.segment?, DownloadedArtifact.baseline?,
            DrainedDownloads.mk.injEq, true_and, and_true]
          rw [List.getLast?_cons, Option.or_some, Option.some_or]

/-! ## Installations -/

section Local

variable {ρ : Type} {ops : LocalOps ρ}

/-- Installing packs in order. -/
def installPacks
    (ops : LocalOps ρ)
    (packs : List Body)
    (repo : ρ) : Except (FetchError × ρ) ρ :=
  packs.foldlM
    (fun repo body => localStep repo fun repo => ops.installPack repo body)
    repo

/-- Installing a baseline bundle and then packs in order. -/
def installAll
    (ops : LocalOps ρ)
    (bundle : Body)
    (packs : List Body)
    (repo : ρ) : Except (FetchError × ρ) ρ :=
  (localStep repo fun repo => ops.unbundleAt repo bundle).bind
    (installPacks ops packs)

omit [Platform] in
/-- Segments of different names, each with a path of its own. -/
theorem installSegments_eq
    {files : Directory}
    {paths : AList fun _ : Sha40 => FileName}
    {segments : List ChainSegment}
    {packs : List Body}
    (distinct : (segments.map ChainSegment.sha).Nodup)
    (stored :
      List.Forall₂
        (fun segment body =>
          ∃ path,
            paths.lookup segment.sha = some path ∧
              files.lookup path = some body)
        segments packs)
    (repo : ρ) :
    installSegments ops files repo paths segments =
      installPacks ops packs repo := by
  induction segments generalizing packs paths repo with
  | nil =>
      cases stored
      rfl
  | cons segment newer hypothesis =>
      rcases stored with _ | ⟨first, later⟩
      rcases first with ⟨path, found, read⟩
      rw [List.map_cons, List.nodup_cons] at distinct
      unfold installSegments installPacks
      rw [found, List.foldlM_cons]
      simp only [readFile, read, Except.bind]
      cases localStep repo fun repo => ops.installPack repo _ with
      | error error => rfl
      | ok installed =>
          apply hypothesis distinct.2
          have others :
              ∀ other ∈ newer, other.sha ≠ segment.sha := by
            intro other member same
            exact distinct.1 (List.mem_map.2 ⟨other, member, same⟩)
          apply
            ((List.forall₂_and_left _ _).2 ⟨others, later⟩).imp
          rintro other body ⟨different, path, found, read⟩
          refine ⟨path, ?_, read⟩
          rw [AList.lookup_erase_ne different]
          exact found

omit [Platform] in
/-- Each path is taken once, so the names must differ. -/
theorem nodup_of_installSegments
    {files : Directory}
    {segments : List ChainSegment}
    {paths : AList fun _ : Sha40 => FileName}
    {repo installed : ρ}
    (succeeds :
      installSegments ops files repo paths segments = .ok installed) :
    (segments.map ChainSegment.sha).Nodup ∧
      ∀ segment ∈ segments, (paths.lookup segment.sha).isSome := by
  induction segments generalizing paths repo with
  | nil => simp
  | cons segment newer hypothesis =>
      unfold installSegments at succeeds
      cases found : paths.lookup segment.sha with
      | none => simp [found] at succeeds
      | some path =>
          simp only [found] at succeeds
          cases step :
              localStep repo fun repo =>
                (readFile files path).bind (ops.installPack repo) with
          | error error =>
              rw [step] at succeeds
              cases succeeds
          | ok next =>
              rw [step] at succeeds
              rcases hypothesis succeeds with ⟨distinct, present⟩
              have others :
                  ∀ other ∈ newer,
                    other.sha ≠ segment.sha ∧
                      (paths.lookup other.sha).isSome := by
                intro other member
                have held := present other member
                have different : other.sha ≠ segment.sha := by
                  intro same
                  rw [same, AList.lookup_erase] at held
                  cases held
                rw [AList.lookup_erase_ne different] at held
                exact ⟨different, held⟩
              constructor
              · rw [List.map_cons, List.nodup_cons]
                refine ⟨?_, distinct⟩
                intro member
                rcases List.mem_map.1 member with ⟨other, inside, same⟩
                exact (others other inside).1 same
              · intro other member
                rcases List.mem_cons.1 member with rfl | inside
                · rw [found]
                  rfl
                · exact (others other inside).2

/-! ## Cold full fetches -/

/-- Segments with canonical pack keys, and the bodies of their packs. -/
def Holds
    (bucketPrefix : Option Text)
    (world : World)
    (segment : ChainSegment)
    (body : Body) : Prop :=
  ∃ sha,
    segment.pack = packKey none sha ∧
      world.body? (packKey bucketPrefix sha) = some body

omit [Platform] in
/-- The download of a canonical segment. -/
theorem spawnSegment_eq_ok
    {segment : ChainSegment}
    {download : SpawnedDownload} :
    spawnSegment bucketPrefix segment = .ok download ↔
      ∃ sha,
        shaFromPackKey segment.pack = some sha ∧
          download =
            { key := packKeyFromRelative bucketPrefix segment.pack
              dest := .pack sha
              artifact := .segment segment.sha (.pack sha) } := by
  unfold spawnSegment segmentPackSha
  cases shaFromPackKey segment.pack with
  | none => simp [Except.map]
  | some sha => simp [Except.map, eq_comm]

omit [Platform] in
theorem exists_of_forall₂
    {α β : Type}
    {relation : α → β → Prop}
    {left : List α}
    {right : List β}
    (related : List.Forall₂ relation left right)
    {item : β}
    (member : item ∈ right) :
    ∃ other ∈ left, relation other item := by
  induction related with
  | nil => cases member
  | cons first _ hypothesis =>
      rcases List.mem_cons.1 member with rfl | inside
      · exact ⟨_, List.mem_cons_self, first⟩
      · rcases hypothesis inside with ⟨other, otherMember, holds⟩
        exact ⟨other, List.mem_cons_of_mem _ otherMember, holds⟩

omit [Platform] in
theorem Holds.spawns
    {world : World}
    {segment : ChainSegment}
    {body : Body}
    (holds : Holds bucketPrefix world segment body) :
    ∃ download,
      spawnSegment bucketPrefix segment = .ok download ∧
        world.body? download.key = some body := by
  rcases holds with ⟨sha, same, stored⟩
  refine
    ⟨_,
      spawnSegment_eq_ok.2
        ⟨sha, by rw [same, shaFromPackKey_packKey], rfl⟩,
      ?_⟩
  change
    world.body? (packKeyFromRelative bucketPrefix segment.pack) = some body
  rw [same, packKeyFromRelative_packKey]
  exact stored

omit [Platform] in
/-- The downloads of stored segments find their packs. -/
theorem exists_spawned
    {world : World}
    {needed : List ChainSegment}
    {bodies : List Body}
    (stored : List.Forall₂ (Holds bucketPrefix world) needed bodies) :
    ∃ packs,
      List.Forall₂
          (fun segment download =>
            spawnSegment bucketPrefix segment = .ok download)
          needed packs ∧
        List.Forall₂
          (fun download body => world.body? download.key = some body)
          packs bodies := by
  induction stored with
  | nil => exact ⟨[], .nil, .nil⟩
  | cons first _ hypothesis =>
      rcases first.spawns with ⟨download, spawns, found⟩
      rcases hypothesis with ⟨packs, spawned, read⟩
      exact ⟨download :: packs, .cons spawns spawned, .cons found read⟩

/-- The download of a baseline bundle. -/
def spawnBaseline
    (bucketPrefix : Option Text)
    (refName : RefName)
    (sha : Sha) : SpawnedDownload where
  key := bundleKey bucketPrefix refName sha
  dest := .bundle sha
  artifact := .baseline sha (.bundle sha)

/-- Everything a cold fetch asks for has been downloaded to its place. -/
structure Delivered
    (needed : List ChainSegment)
    (bodies : List Body)
    (sha : Sha)
    (bundle : Body)
    (drained : DrainedDownloads) : Prop where
  firstErr : drained.firstErr = none
  baseline :
    ∃ path,
      drained.baseline = some (sha, path) ∧
        drained.files.lookup path = some bundle
  segments :
    List.Forall₂
      (fun segment body =>
        ∃ path,
          drained.segments.lookup segment.sha = some path ∧
            drained.files.lookup path = some body)
      needed bodies

section Delivery

variable
    {world : World}
    {refName : RefName}
    {needed : List ChainSegment}
    {bodies : List Body}
    {packs arranged : List SpawnedDownload}
    {sha : Sha}
    {bundle : Body}

theorem segmentPaths_spawned
    (spawned :
      List.Forall₂
        (fun segment download =>
          spawnSegment bucketPrefix segment = .ok download)
        needed packs) :
    (segmentPaths (packs ++ [spawnBaseline bucketPrefix refName sha])).map
        Prod.fst =
      needed.map ChainSegment.sha := by
  unfold segmentPaths
  rw [List.filterMap_append, List.map_append]
  have rest :
      (List.filterMap
          (fun download : SpawnedDownload => download.artifact.segment?)
          [spawnBaseline bucketPrefix refName sha]).map Prod.fst = [] :=
    rfl
  rw [rest, List.append_nil]
  induction spawned with
  | nil => rfl
  | cons first _ hypothesis =>
      rcases spawnSegment_eq_ok.1 first with ⟨content, -, rfl⟩
      exact congrArg (_ :: ·) hypothesis

theorem baselinePaths_spawned
    (spawned :
      List.Forall₂
        (fun segment download =>
          spawnSegment bucketPrefix segment = .ok download)
        needed packs) :
    baselinePaths (packs ++ [spawnBaseline bucketPrefix refName sha]) =
      [(sha, .bundle sha)] := by
  unfold baselinePaths
  rw [List.filterMap_append]
  have none? :
      packs.filterMap
          (fun download : SpawnedDownload =>
            download.artifact.baseline?) =
        [] := by
    apply List.filterMap_eq_nil_iff.2
    intro download member
    rcases exists_of_forall₂ spawned member with ⟨segment, -, spawns⟩
    rcases spawnSegment_eq_ok.1 spawns with ⟨content, -, rfl⟩
    rfl
  rw [none?]
  rfl

/-- What is stored at the key of a download. -/
def SpawnedDownload.body
    (world : World)
    (download : SpawnedDownload) : Body :=
  (world.body? download.key).getD (.text [])

omit [Platform] in
/-- The download of a stored segment. -/
theorem spawned_eq
    (stored : List.Forall₂ (Holds bucketPrefix world) needed bodies)
    {segment : ChainSegment}
    {download : SpawnedDownload}
    (member : segment ∈ needed)
    (spawns : spawnSegment bucketPrefix segment = .ok download) :
    ∃ content body,
      segment.pack = packKey none content ∧
        download =
          { key := packKey bucketPrefix content
            dest := .pack content
            artifact := .segment segment.sha (.pack content) } ∧
        world.body? (packKey bucketPrefix content) = some body := by
  rcases exists_of_forall₂ stored.flip member with
    ⟨body, -, content, same, found⟩
  rcases spawnSegment_eq_ok.1 spawns with ⟨other, parsed, rfl⟩
  rw [same, shaFromPackKey_packKey] at parsed
  cases parsed
  rw [same, packKeyFromRelative_packKey]
  exact ⟨content, body, rfl, rfl, found⟩

theorem mem_spawned
    (spawned :
      List.Forall₂
        (fun segment download =>
          spawnSegment bucketPrefix segment = .ok download)
        needed packs)
    (complete :
      arranged.Perm (packs ++ [spawnBaseline bucketPrefix refName sha]))
    {download : SpawnedDownload}
    (member : download ∈ arranged) :
    download = spawnBaseline bucketPrefix refName sha ∨
      ∃ segment ∈ needed,
        spawnSegment bucketPrefix segment = .ok download := by
  rcases List.mem_append.1 (complete.mem_iff.1 member) with inside | last
  · exact Or.inr (exists_of_forall₂ spawned inside)
  · exact Or.inl (List.mem_singleton.1 last)

/-- Every download of stored objects is collected. -/
theorem drained_eq
    (stored : List.Forall₂ (Holds bucketPrefix world) needed bodies)
    (based :
      world.body? (bundleKey bucketPrefix refName sha) = some bundle)
    (spawned :
      List.Forall₂
        (fun segment download =>
          spawnSegment bucketPrefix segment = .ok download)
        needed packs)
    (complete :
      arranged.Perm (packs ++ [spawnBaseline bucketPrefix refName sha])) :
    drained world arranged =
      { files :=
          collect SpawnedDownload.dest (SpawnedDownload.body world) arranged
        segments := collect Prod.fst Prod.snd (segmentPaths arranged)
        baseline := (baselinePaths arranged).getLast?.or none
        firstErr := none } := by
  have present :
      ∀ download ∈ arranged,
        world.body? download.key =
          some (SpawnedDownload.body world download) := by
    intro download member
    unfold SpawnedDownload.body
    rcases mem_spawned spawned complete member with
      rfl | ⟨segment, inside, spawns⟩
    · simp only [spawnBaseline, based, Option.getD_some]
    · rcases spawned_eq stored inside spawns with
        ⟨content, found, -, rfl, read⟩
      simp only [read, Option.getD_some]
  exact foldl_join present .start

/-- In whatever order the downloads complete, all of them are delivered. -/
theorem delivered
    (distinct : (needed.map ChainSegment.sha).Nodup)
    (stored : List.Forall₂ (Holds bucketPrefix world) needed bodies)
    (based :
      world.body? (bundleKey bucketPrefix refName sha) = some bundle)
    (spawned :
      List.Forall₂
        (fun segment download =>
          spawnSegment bucketPrefix segment = .ok download)
        needed packs)
    (complete :
      arranged.Perm (packs ++ [spawnBaseline bucketPrefix refName sha])) :
    Delivered needed bodies sha bundle (drained world arranged) := by
  rw [drained_eq stored based spawned complete]
  constructor
  case firstErr => rfl
  case baseline =>
      have paths :
          baselinePaths arranged = [(sha, .bundle sha)] := by
        apply List.perm_singleton.1
        have permuted :=
          complete.filterMap fun download =>
            download.artifact.baseline?
        exact permuted.trans (List.Perm.of_eq (baselinePaths_spawned spawned))
      refine ⟨.bundle sha, ?_, ?_⟩
      · rw [paths]
        rfl
      · have member :
            spawnBaseline bucketPrefix refName sha ∈ arranged :=
          complete.mem_iff.2 (by simp)
        have found :=
          @lookup_collect_of_agree _ _ _ _ SpawnedDownload.dest
            (SpawnedDownload.body world) arranged _ member (by
              intro other inside same
              rcases mem_spawned spawned complete inside with
                rfl | ⟨segment, segmentInside, spawns⟩
              · rfl
              · rcases spawned_eq stored segmentInside spawns with
                  ⟨content, -, -, rfl, -⟩
                cases same)
        refine found.trans ?_
        simp only [SpawnedDownload.body, spawnBaseline, based,
          Option.getD_some]
  case segments =>
      have distinctPaths :
          ((segmentPaths arranged).map Prod.fst).Nodup := by
        have permuted :=
          (complete.filterMap fun download =>
            download.artifact.segment?).map Prod.fst
        apply permuted.nodup_iff.2
        have names :=
          @segmentPaths_spawned _ bucketPrefix refName needed packs sha
            spawned
        unfold segmentPaths at names
        rw [names]
        exact distinct
      have delivering :
          ∀ segment ∈ needed, ∀ found,
            Holds bucketPrefix world segment found →
              ∃ path,
                (collect Prod.fst Prod.snd
                    (segmentPaths arranged)).lookup segment.sha =
                  some path ∧
                (collect SpawnedDownload.dest
                    (SpawnedDownload.body world) arranged).lookup path =
                  some found := by
        rintro segment inside found ⟨content, same, read⟩
        rcases exists_of_forall₂ spawned.flip inside with
          ⟨download, downloadInside, spawns⟩
        rcases spawned_eq stored inside spawns with
          ⟨other, -, otherSame, rfl, -⟩
        have equal : other = content := by
          apply Option.some.inj
          rw [← shaFromPackKey_packKey other, ← otherSame, same,
            shaFromPackKey_packKey]
        subst equal
        have member :=
          complete.mem_iff.2 (List.mem_append_left _ downloadInside)
        have listed :
            (segment.sha, FileName.pack other) ∈ segmentPaths arranged :=
          List.mem_filterMap.2 ⟨_, member, rfl⟩
        refine ⟨.pack other, lookup_collect distinctPaths listed, ?_⟩
        have held :=
          @lookup_collect_of_agree _ _ _ _ SpawnedDownload.dest
            (SpawnedDownload.body world) arranged _ member (by
              intro rival rivalInside sameDest
              rcases mem_spawned spawned complete rivalInside with
                rfl | ⟨owner, ownerInside, ownerSpawns⟩
              · cases sameDest
              · rcases spawned_eq stored ownerInside ownerSpawns with
                  ⟨content, -, -, rfl, -⟩
                cases sameDest
                rfl)
        refine held.trans ?_
        simp only [SpawnedDownload.body, read, Option.getD_some]
      apply
        ((List.forall₂_and_left _ _).2
          ⟨fun segment inside => inside, stored⟩).imp
      rintro segment found ⟨inside, holds⟩
      exact delivering segment inside found holds

end Delivery

omit [Platform] in
/-- A delivered download installs as if nothing had been named. -/
theorem Delivered.installs
    {needed : List ChainSegment}
    {bodies : List Body}
    {sha : Sha}
    {bundle : Body}
    {drained : DrainedDownloads}
    (delivered : Delivered needed bodies sha bundle drained)
    (distinct : (needed.map ChainSegment.sha).Nodup)
    (repo : ρ) :
    installDrained ops repo drained needed =
      installAll ops bundle bodies.reverse repo := by
  rcases delivered.baseline with ⟨path, based, read⟩
  unfold installDrained installAll
  rw [based]
  simp only [readFile, read, Except.bind]
  cases localStep repo fun repo => ops.unbundleAt repo bundle with
  | error error => rfl
  | ok installed =>
      apply installSegments_eq
      · rw [List.map_reverse, List.nodup_reverse]
        exact distinct
      · exact List.forall₂_reverse_iff.2 delivered.segments

/-- A cold full fetch installs the baseline and every pack, in order. -/
theorem run_fetchFull
    {world : World}
    {refName : RefName}
    {needed : List ChainSegment}
    {bodies : List Body}
    {sha : Sha}
    {bundle : Body}
    (distinct : (needed.map ChainSegment.sha).Nodup)
    (stored : List.Forall₂ (Holds bucketPrefix world) needed bodies)
    (based :
      world.body? (bundleKey bucketPrefix refName sha) = some bundle)
    (completion : Completion)
    (repo : ρ) :
    run answer
        (fetchFull ops bucketPrefix completion refName repo needed
          (some sha))
        world =
      (installAll ops bundle bodies.reverse repo, world) := by
  rcases exists_spawned stored with ⟨packs, spawned, -⟩
  have all :
      spawnFullDownloads bucketPrefix refName needed (some sha) =
        .ok (packs ++ [spawnBaseline bucketPrefix refName sha]) := by
    unfold spawnFullDownloads
    rw [mapM_eq_ok.2 spawned]
    rfl
  have delivery :=
    delivered distinct stored based spawned
      (completion.arrange_perm
        (packs ++ [spawnBaseline bucketPrefix refName sha]))
  unfold fetchFull
  rw [if_neg (by simp), all]
  simp only
  rw [run_bind, run_drainFullDownloads]
  simp only [delivery.firstErr, delivery.installs distinct]
  cases installAll ops bundle bodies.reverse repo <;> rfl

/-- Whatever the segments are named, the installation is all that can fail. -/
theorem run_fetchFull_stored
    {world : World}
    {refName : RefName}
    {needed : List ChainSegment}
    {bodies : List Body}
    {sha : Sha}
    {bundle : Body}
    (stored : List.Forall₂ (Holds bucketPrefix world) needed bodies)
    (based :
      world.body? (bundleKey bucketPrefix refName sha) = some bundle)
    (completion : Completion)
    (repo : ρ) :
    ∃ drained,
      run answer
          (fetchFull ops bucketPrefix completion refName repo needed
            (some sha))
          world =
        (installDrained ops repo drained needed, world) := by
  rcases exists_spawned stored with ⟨packs, spawned, -⟩
  have all :
      spawnFullDownloads bucketPrefix refName needed (some sha) =
        .ok (packs ++ [spawnBaseline bucketPrefix refName sha]) := by
    unfold spawnFullDownloads
    rw [mapM_eq_ok.2 spawned]
    rfl
  have joined :=
    drained_eq stored based spawned
      (completion.arrange_perm
        (packs ++ [spawnBaseline bucketPrefix refName sha]))
  refine
    ⟨drained world
        (completion.arrange
          (packs ++ [spawnBaseline bucketPrefix refName sha])),
      ?_⟩
  unfold fetchFull
  rw [if_neg (by simp), all]
  simp only
  rw [run_bind, run_drainFullDownloads, joined]
  simp only
  generalize installDrained ops repo _ needed = outcome
  cases outcome <;> rfl

omit [Platform] in
theorem localStep_ne_packMissing
    {repo left : ρ}
    {step : ρ → Except InstallError ρ}
    {error : FetchError}
    (fails : localStep repo step = .error (error, left))
    (key : Text) :
    error ≠ .packchain (.packMissing key) := by
  unfold localStep at fails
  cases stepped : step repo with
  | ok next =>
      rw [stepped] at fails
      cases fails
  | error cause =>
      rw [stepped] at fails
      cases fails
      cases cause <;> simp [InstallError.toFetchError]

omit [Platform] in
/-- An installation does not fail as a missing pack does. -/
theorem installSegments_ne_packMissing
    {files : Directory}
    {segments : List ChainSegment}
    {paths : AList fun _ : Sha40 => FileName}
    {repo left : ρ}
    {error : FetchError}
    (fails :
      installSegments ops files repo paths segments =
        .error (error, left))
    (key : Text) :
    error ≠ .packchain (.packMissing key) := by
  induction segments generalizing paths repo with
  | nil => cases fails
  | cons segment newer hypothesis =>
      unfold installSegments at fails
      cases found : paths.lookup segment.sha with
      | none =>
          simp only [found] at fails
          cases fails
          simp
      | some path =>
          simp only [found] at fails
          cases step :
              localStep repo fun repo =>
                (readFile files path).bind (ops.installPack repo) with
          | error failure =>
              rw [step] at fails
              cases fails
              exact localStep_ne_packMissing step key
          | ok installed =>
              rw [step] at fails
              exact hypothesis fails

omit [Platform] in
theorem installDrained_ne_packMissing
    {drained : DrainedDownloads}
    {needed : List ChainSegment}
    {repo left : ρ}
    {error : FetchError}
    (fails :
      installDrained ops repo drained needed = .error (error, left))
    (key : Text) :
    error ≠ .packchain (.packMissing key) := by
  unfold installDrained at fails
  cases based : drained.baseline with
  | none =>
      rw [based] at fails
      exact installSegments_ne_packMissing fails key
  | some baseline =>
      simp only [based] at fails
      cases step :
          localStep repo fun repo =>
            (readFile drained.files baseline.2).bind
              (ops.unbundleAt repo) with
      | error failure =>
          rw [step] at fails
          cases fails
          exact localStep_ne_packMissing step key
      | ok installed =>
          rw [step] at fails
          exact installSegments_ne_packMissing fails key

omit [Platform] in
/-- An installation that succeeds has found its segments differently named. -/
theorem nodup_of_installDrained
    {drained : DrainedDownloads}
    {needed : List ChainSegment}
    {repo installed : ρ}
    (succeeds : installDrained ops repo drained needed = .ok installed) :
    (needed.map ChainSegment.sha).Nodup := by
  rw [← List.nodup_reverse, ← List.map_reverse]
  unfold installDrained at succeeds
  cases based : drained.baseline with
  | none =>
      rw [based] at succeeds
      exact (nodup_of_installSegments succeeds).1
  | some baseline =>
      simp only [based] at succeeds
      cases step :
          localStep repo fun repo =>
            (readFile drained.files baseline.2).bind
              (ops.unbundleAt repo) with
      | error failure =>
          rw [step] at succeeds
          cases succeeds
      | ok next =>
          rw [step] at succeeds
          exact (nodup_of_installSegments succeeds).1

/-- It requests every pack and the baseline once. -/
theorem issued_fetchFull
    {world : World}
    {refName : RefName}
    {needed : List ChainSegment}
    {bodies : List Body}
    {sha : Sha}
    (stored : List.Forall₂ (Holds bucketPrefix world) needed bodies)
    (completion : Completion)
    (repo : ρ) :
    (issued answer
        (fetchFull ops bucketPrefix completion refName repo needed
          (some sha))
        world).Perm
      (needed.map
          (fun segment =>
            Call.get (packKeyFromRelative bucketPrefix segment.pack)) ++
        [.get (bundleKey bucketPrefix refName sha)]) := by
  rcases exists_spawned stored with ⟨packs, spawned, -⟩
  have all :
      spawnFullDownloads bucketPrefix refName needed (some sha) =
        .ok (packs ++ [spawnBaseline bucketPrefix refName sha]) := by
    unfold spawnFullDownloads
    rw [mapM_eq_ok.2 spawned]
    rfl
  have keys :
      packs.map (fun download => Call.get download.key) =
        needed.map fun segment =>
          Call.get (packKeyFromRelative bucketPrefix segment.pack) := by
    clear stored all
    induction spawned with
    | nil => rfl
    | cons first _ hypothesis =>
        rcases spawnSegment_eq_ok.1 first with ⟨content, -, rfl⟩
        exact congrArg (_ :: ·) hypothesis
  unfold fetchFull
  rw [if_neg (by simp), all]
  simp only
  rw [issued_bind_ok (run_drainFullDownloads _ _),
    issued_drainFullDownloads]
  have permuted :=
    (completion.arrange_perm
        (packs ++ [spawnBaseline bucketPrefix refName sha])).map
      fun download => Call.get download.key
  rw [List.map_append, keys] at permuted
  split
  · rw [issued, List.append_nil]
    exact permuted
  · rw [issued_ofExcept, List.append_nil]
    exact permuted

/-! ## Attempts -/

omit [Platform] in
/-- A cold repository needs every segment and the baseline. -/
theorem selectNeededSegments_cold
    {repo : ρ}
    {segments : List ChainSegment}
    (cold : ∀ segment ∈ segments, ops.contains repo segment.sha = false) :
    selectNeededSegments ops repo segments = (segments, true) := by
  induction segments with
  | nil => rfl
  | cons segment older hypothesis =>
      unfold selectNeededSegments
      rw [if_neg (by simp [cold segment List.mem_cons_self]),
        hypothesis fun other member =>
          cold other (List.mem_cons_of_mem _ member)]

/-- An attempt at a full fetch of a stored chain into a cold repository. -/
theorem fetchOnce_cold
    {world : World}
    {refName : RefName}
    {chain : ChainManifest}
    (found : world.chain? bucketPrefix refName = some chain)
    {repo : ρ}
    (cold :
      ∀ segment ∈ chain.segments,
        ops.contains repo segment.sha = false)
    (completion : Completion)
    (sha : Sha) :
    run answer
          (fetchOnce ops bucketPrefix completion refName sha none repo)
          world =
        run answer
          (fetchFull ops bucketPrefix completion refName repo
            chain.segments (some chain.fullAt))
          world ∧
      issued answer
          (fetchOnce ops bucketPrefix completion refName sha none repo)
          world =
        .get (chainKey bucketPrefix refName) ::
          issued answer
            (fetchFull ops bucketPrefix completion refName repo
              chain.segments (some chain.fullAt))
            world := by
  have loaded := loadedChain_of_chain? _ _ found
  unfold fetchOnce
  constructor
  · rw [run_bind, run_mapError, run_loadChain, loaded]
    simp only [Except.mapError, selectNeededSegments_cold cold, if_true]
  · rw [issued_bind, issued_mapError, issued_loadChain, run_mapError,
      run_loadChain, loaded]
    simp only [Except.mapError, selectNeededSegments_cold cold, if_true]
    rfl

end Local

end GitRemoteObjectStore.Packchain
