import GitRemoteObjectStore.FetchRuns
import GitRemoteObjectStore.Provenance
import GitRemoteObjectStore.Library.Drift
import GitRemoteObjectStore.Library.Machine

/-!
# What full fetches leave in a repository

A repository is closed if it has what each of its objects names.  Full
fetches install packs oldest first, each on top of what its segment's pack
leaves out, so a closed repository stays closed even where a fetch fails
half way.  A fetch that succeeds has everything the tip of the chain it read
reaches.  Other clients may push, force, delete, compact and collect between
any two of its calls.
-/

namespace GitRemoteObjectStore.FetchClosure

open CallProgram Prog Packchain Closure Arrivals
open GitRemoteObjectStore.ChainClosure
open Provenance

/-! ## Local repositories -/

/-- A repository has a set of objects, to which installing a file adds. -/
structure Holding
    {ρ : Type}
    (ops : LocalOps ρ)
    (contents : Contents)
    (held : ρ → Set Sha) : Prop where
  contains :
    ∀ repo sha, ops.contains repo sha = true → sha ∈ held repo
  unbundleAt :
    ∀ repo bytes found later,
      contents.bundleObjects bytes = some found →
        ops.unbundleAt repo (.file bytes) = .ok later →
          held later = held repo ∪ (found : Set Sha)
  installPack :
    ∀ repo bytes found later,
      contents.packObjects bytes = some found →
        ops.installPack repo (.file bytes) = .ok later →
          held later = held repo ∪ (found : Set Sha)

/-! ## Chains from below -/

section Stacks

variable {objects : Objects} {contents : Contents}

/-- What each segment's pack adds to what is there, oldest first. -/
def Stacked
    (objects : Objects)
    (contents : Contents) : Set Sha → List ChainSegment → Prop
  | _, [] => True
  | base, segment :: newer =>
      objectsOf contents segment ⊆ objects.reach segment.sha ∧
        objects.reach segment.sha ⊆ objectsOf contents segment ∪ base ∧
          Stacked objects contents (objects.reach segment.sha) newer

/-- What the newest segment of a list reaches. -/
def summit
    (objects : Objects)
    (base : Set Sha)
    (segments : List ChainSegment) : Set Sha :=
  match segments.getLast? with
  | none => base
  | some newest => objects.reach newest.sha

theorem stacked_concat
    {base : Set Sha}
    {early : List ChainSegment}
    {segment : ChainSegment}
    (stacked : Stacked objects contents base early)
    (within : objectsOf contents segment ⊆ objects.reach segment.sha)
    (covers :
      objects.reach segment.sha ⊆
        objectsOf contents segment ∪ summit objects base early) :
    Stacked objects contents base (early ++ [segment]) := by
  induction early generalizing base with
  | nil => exact ⟨within, covers, trivial⟩
  | cons first rest hypothesis =>
      refine ⟨stacked.1, stacked.2.1, hypothesis stacked.2.2 ?_⟩
      cases rest with
      | nil => exact covers
      | cons second rest =>
          unfold summit at covers ⊢
          rw [List.getLast?_cons_cons] at covers
          exact covers

/-- What the newest of the segments left out reaches. -/
def floor
    (objects : Objects) : List ChainSegment → Set Sha
  | [] => ∅
  | newest :: _ => objects.reach newest.sha

/-- The newer part of a layered chain, from below. -/
theorem stacked_of_layered
    {needed rest : List ChainSegment}
    (layered :
      needed = [] ∨ Layered objects contents (needed ++ rest)) :
    Stacked objects contents (floor objects rest) needed.reverse := by
  induction needed with
  | nil => trivial
  | cons newest older hypothesis =>
      rcases layered with none | layered
      · cases none
      rw [List.reverse_cons]
      generalize split : older ++ rest = below at layered hypothesis
      rw [List.cons_append, split] at layered
      cases layered with
      | baseline whole =>
          rcases List.append_eq_nil_iff.1 split with ⟨rfl, rfl⟩
          refine ⟨whole.subset, ?_, trivial⟩
          rw [whole]
          exact Set.subset_union_left
      | @incremental newest first last within covers layered =>
          apply stacked_concat (hypothesis (Or.inr layered)) within
          have top :
              summit objects (floor objects rest) older.reverse =
                objects.reach first.sha := by
            unfold summit
            rw [List.getLast?_reverse]
            cases older with
            | nil =>
                cases rest with
                | nil => cases split
                | cons next rest =>
                    cases split
                    rfl
            | cons next older =>
                cases split
                rfl
          rw [top]
          exact covers

end Stacks

/-! ## Installing -/

section Installs

variable
    {ρ : Type}
    {ops : LocalOps ρ}
    {objects : Objects}
    {contents : Contents}
    {held : ρ → Set Sha}

/-- What a downloaded file may be. -/
def FileBody
    (objects : Objects)
    (contents : Contents)
    (body : Body) : FileName → Prop
  | .pack name => PackBody contents name body
  | .bundle tip => BundleBody objects contents tip body

/-- Every file is what its name says. -/
def Filed
    (objects : Objects)
    (contents : Contents)
    (files : Directory) : Prop :=
  ∀ path body,
    files.lookup path = some body → FileBody objects contents body path

/-- A repository is closed and has lost nothing. -/
structure Grown
    (objects : Objects)
    (held : ρ → Set Sha)
    (repo later : ρ) : Prop where
  closed : Closed objects.links (held later)
  grows : held repo ⊆ held later

theorem Grown.refl
    {repo : ρ}
    (closed : Closed objects.links (held repo)) :
    Grown objects held repo repo :=
  ⟨closed, subset_rfl⟩

theorem Grown.trans
    {repo middle later : ρ}
    (early : held repo ⊆ held middle)
    (late : Grown objects held middle later) :
    Grown objects held repo later :=
  ⟨late.closed, early.trans late.grows⟩

theorem Grown.has
    {repo later : ρ}
    (grown : Grown objects held repo later)
    {sha : Sha}
    (inside : sha ∈ held repo) :
    objects.reach sha ⊆ held later :=
  grown.closed.reach_subset (grown.grows inside)

/-- What installing segments leaves, whether or not it fails. -/
def Installed
    (objects : Objects)
    (held : ρ → Set Sha)
    (repo : ρ)
    (segments : List ChainSegment) : Except (FetchError × ρ) ρ → Prop
  | .ok later =>
      Grown objects held repo later ∧
        ∀ segment ∈ segments, objects.reach segment.sha ⊆ held later
  | .error failure => Grown objects held repo failure.2

theorem localStep_cases (repo : ρ) (step : ρ → Except InstallError ρ) :
    (∃ later, step repo = .ok later ∧ localStep repo step = .ok later) ∨
      ∃ error, localStep repo step = .error (error, repo) := by
  unfold localStep
  cases stepped : step repo with
  | ok later => exact Or.inl ⟨later, rfl, rfl⟩
  | error error => exact Or.inr ⟨error.toFetchError, rfl⟩

/-- Installing a downloaded pack adds the objects of its name. -/
theorem Holding.held_installed
    (holding : Holding ops contents held)
    {files : Directory}
    (filed : Filed objects contents files)
    {name : Sha40}
    {repo later : ρ}
    (installs :
      (readFile files (.pack name)).bind (ops.installPack repo) =
        .ok later) :
    held later = held repo ∪ contents.packed name := by
  unfold readFile at installs
  cases found : files.lookup (.pack name) with
  | none =>
      rw [found] at installs
      cases installs
  | some body =>
      rw [found] at installs
      rcases filed _ _ found with ⟨rfl, readable⟩
      rcases Option.isSome_iff_exists.1 readable with ⟨inside, reads⟩
      rw [holding.installPack _ _ _ _ reads installs, Contents.packed,
        reads]
      rfl

/-- Unbundling a downloaded baseline adds what its tip reaches. -/
theorem Holding.held_unbundled
    (holding : Holding ops contents held)
    {files : Directory}
    (filed : Filed objects contents files)
    {tip : Sha40}
    {repo later : ρ}
    (unbundles :
      (readFile files (.bundle tip)).bind (ops.unbundleAt repo) =
        .ok later) :
    held later = held repo ∪ objects.reach tip := by
  unfold readFile at unbundles
  cases found : files.lookup (.bundle tip) with
  | none =>
      rw [found] at unbundles
      cases unbundles
  | some body =>
      rw [found] at unbundles
      rcases filed _ _ found with ⟨bytes, rfl, inside, reads, whole⟩
      rw [holding.unbundleAt _ _ _ _ reads unbundles, whole]

/-- Each segment has the path of its own pack. -/
def OwnPaths
    (paths : AList fun _ : Sha40 => FileName)
    (segments : List ChainSegment) : Prop :=
  ∀ segment ∈ segments, ∀ path,
    paths.lookup segment.sha = some path →
      ∃ name, segment.pack = packKey none name ∧ path = .pack name

theorem OwnPaths.next
    {paths : AList fun _ : Sha40 => FileName}
    {segment : ChainSegment}
    {newer : List ChainSegment}
    (own : OwnPaths paths (segment :: newer)) :
    OwnPaths (paths.erase segment.sha) newer := by
  intro other member path found
  by_cases same : other.sha = segment.sha
  · rw [same, AList.lookup_erase] at found
    cases found
  · rw [AList.lookup_erase_ne same] at found
    exact own other (List.mem_cons_of_mem _ member) path found

/-- Oldest first, every pack lands on a closed repository. -/
theorem installed_installSegments
    (holding : Holding ops contents held)
    {files : Directory}
    (filed : Filed objects contents files)
    {segments : List ChainSegment}
    {paths : AList fun _ : Sha40 => FileName}
    (own : OwnPaths paths segments)
    {base : Set Sha}
    (stacked : Stacked objects contents base segments)
    {repo : ρ}
    (closed : Closed objects.links (held repo))
    (based : base ⊆ held repo) :
    Installed objects held repo segments
      (installSegments ops files repo paths segments) := by
  induction segments generalizing paths repo base with
  | nil =>
      refine ⟨.refl closed, fun segment member => ?_⟩
      cases member
  | cons segment newer hypothesis =>
      unfold installSegments
      cases found : paths.lookup segment.sha with
      | none => exact Grown.refl closed
      | some path =>
          rcases own segment List.mem_cons_self path found with
            ⟨name, same, rfl⟩
          rcases localStep_cases repo fun repo =>
              (readFile files (.pack name)).bind
                (ops.installPack repo) with
            ⟨installed, stepped, ran⟩ | ⟨error, ran⟩
          · dsimp only
            rw [ran]
            change
              Installed objects held repo (segment :: newer)
                (installSegments ops files installed
                  (paths.erase segment.sha) newer)
            have adds := holding.held_installed filed stepped
            rw [← objectsOf_packKey same] at adds
            have layer :=
              closed.union_layer based stacked.1 stacked.2.1
            rw [← adds] at layer
            have grows : held repo ⊆ held installed := by
              rw [adds]
              exact Set.subset_union_left
            have rest :=
              hypothesis own.next stacked.2.2 layer.1 layer.2
            cases last :
                installSegments ops files installed
                  (paths.erase segment.sha) newer with
            | error failure =>
                rw [last] at rest
                exact Grown.trans grows rest
            | ok later =>
                rw [last] at rest
                refine ⟨.trans grows rest.1, ?_⟩
                intro other member
                rcases List.mem_cons.1 member with rfl | inside
                · exact layer.2.trans rest.1.grows
                · exact rest.2 other inside
          · dsimp only
            rw [ran]
            exact Grown.refl closed

/-- What a chain names is collected under its own names. -/
structure Sound
    (objects : Objects)
    (contents : Contents)
    (needed : List ChainSegment)
    (drained : DrainedDownloads) : Prop where
  files : Filed objects contents drained.files
  segments :
    ∀ sha path,
      drained.segments.lookup sha = some path →
        ∃ segment ∈ needed,
          segment.sha = sha ∧
            ∃ name, segment.pack = packKey none name ∧ path = .pack name
  baseline :
    ∀ sha path, drained.baseline = some (sha, path) → path = .bundle sha

theorem Sound.ownPaths
    {needed : List ChainSegment}
    {drained : DrainedDownloads}
    (sound : Sound objects contents needed drained)
    (distinct : (needed.map ChainSegment.sha).Nodup) :
    OwnPaths drained.segments needed := by
  intro segment member path found
  rcases sound.segments _ _ found with
    ⟨other, inside, same, name, key, named⟩
  rw [List.inj_on_of_nodup_map distinct inside member same] at key
  exact ⟨name, key, named⟩

/-- The baseline goes first, and is closed by itself. -/
theorem installed_installDrained
    (holding : Holding ops contents held)
    {needed rest : List ChainSegment}
    {drained : DrainedDownloads}
    (sound : Sound objects contents needed drained)
    (distinct : (needed.map ChainSegment.sha).Nodup)
    (layered :
      needed = [] ∨ Layered objects contents (needed ++ rest))
    {repo : ρ}
    (closed : Closed objects.links (held repo))
    (based : floor objects rest ⊆ held repo) :
    Installed objects held repo needed
      (installDrained ops repo drained needed) := by
  have own : OwnPaths drained.segments needed.reverse := by
    intro segment member
    exact sound.ownPaths distinct segment (List.mem_reverse.1 member)
  have above
      {started : ρ}
      (grown : Grown objects held repo started) :
      Installed objects held repo needed
        (installSegments ops drained.files started drained.segments
          needed.reverse) := by
    have installs :=
      installed_installSegments holding sound.files own
        (stacked_of_layered layered) grown.closed
        (based.trans grown.grows)
    cases last :
        installSegments ops drained.files started drained.segments
          needed.reverse with
    | error failure =>
        rw [last] at installs
        exact Grown.trans grown.grows installs
    | ok later =>
        rw [last] at installs
        refine ⟨.trans grown.grows installs.1, fun segment member => ?_⟩
        exact installs.2 segment (List.mem_reverse.2 member)
  unfold installDrained
  cases found : drained.baseline with
  | none => exact above (.refl closed)
  | some baseline =>
      rcases baseline with ⟨sha, path⟩
      cases sound.baseline sha path found
      rcases localStep_cases repo fun repo =>
          (readFile drained.files (.bundle sha)).bind
            (ops.unbundleAt repo) with
        ⟨started, stepped, ran⟩ | ⟨error, ran⟩
      · dsimp only
        rw [ran]
        apply above
        have adds := holding.held_unbundled sound.files stepped
        have layer :=
          closed.union_layer (Set.empty_subset _) (subset_refl _)
            (Set.subset_union_left : objects.reach sha ⊆ _ ∪ ∅)
        constructor
        · rw [adds]
          exact layer.1
        · rw [adds]
          exact Set.subset_union_left
      · dsimp only
        rw [ran]
        exact Grown.refl closed

end Installs

/-! ## Buckets over time -/

section Buckets

variable
    [Platform]
    {objects : Objects}
    {contents : Contents}
    {bucketPrefix : Option Text}

/-- The store at the moment of each call. -/
abbrev atMoments
    (buckets : Nat → World)
    (faults : Nat → Option ObjectStoreError) : Handler Call Reply Nat :=
  drifting answer failed buckets faults

variable
    {buckets : Nat → World}
    {faults : Nat → Option ObjectStoreError}

/-- What is read was there at the time. -/
theorem body?_of_heard
    {key : Text}
    {moment : Nat}
    {body : Body}
    (heard : (atMoments buckets faults (.get key) moment).1 = .ok body) :
    (buckets moment).body? key = some body := by
  have told :
      (atMoments buckets faults (.get key) moment).1 =
          (answer (.get key) (buckets moment)).1 ∨
        ∃ error,
          failed error (.get key) =
            some (atMoments buckets faults (.get key) moment).1 :=
    drifting_cases (Call.get key) moment
  rcases told with same | ⟨error, broken⟩
  · rw [same] at heard
    unfold World.body?
    simp only [answer] at heard
    cases found : (buckets moment).get? key with
    | none =>
        rw [found] at heard
        cases heard
    | some object =>
        rw [found] at heard
        cases heard
        rfl
  · rw [heard] at broken
    cases broken

theorem safe_getBytes (key : Text) (moment : Nat) :
    Safe (Contract.flowing Call) (atMoments buckets faults)
      (whenOk fun body now =>
        ∃ read, moment ≤ read ∧ read < now ∧
          (buckets read).body? key = some body)
      (Store.getBytes key) moment := by
  apply safe_drifting_call
  intro read since
  apply safe_ofExcept
  intro now later _
  cases heard : (atMoments buckets faults (.get key) read).1 with
  | error error => trivial
  | ok body =>
      exact ⟨read, since, later, body?_of_heard heard⟩

/-- A chain that is loaded was there at the time. -/
theorem safe_loadChain (refName : RefName) (moment : Nat) :
    Safe (Contract.flowing Call) (atMoments buckets faults)
      (whenOk fun found now =>
        ∀ chain, found = some chain →
          ∃ read, moment ≤ read ∧ read < now ∧
            (buckets read).chain? bucketPrefix refName = some chain)
      (loadChain bucketPrefix refName) moment := by
  unfold loadChain
  apply (safe_getBytes _ moment).attempt.andThen
  intro outcome now _ heard
  cases outcome with
  | error error =>
      cases error with
      | notFound key =>
          intro later _ _ chain found
          cases found
      | _ => exact safe_fail
  | ok body =>
      dsimp only
      split
      next chain parsed =>
          intro later since _ found same
          cases same
          rcases heard with ⟨read, after, before, stored⟩
          refine ⟨read, after, Nat.lt_of_lt_of_le before since, ?_⟩
          unfold World.chain?
          rw [stored]
          simp only [parsed]
          rfl
      · exact safe_fail

/-! ## Downloads -/

/-- A download that a fetch of a chain spawns. -/
def Spawned
    (bucketPrefix : Option Text)
    (refName : RefName)
    (needed : List ChainSegment)
    (download : SpawnedDownload) : Prop :=
  (∃ tip, download = spawnBaseline bucketPrefix refName tip) ∨
    ∃ segment ∈ needed, ∃ name,
      segment.pack = packKey none name ∧
        download =
          { key := packKey bucketPrefix name
            dest := .pack name
            artifact := .segment segment.sha (.pack name) }

theorem spawned_of_spawns
    {refName : RefName}
    {needed : List ChainSegment}
    {baselineSha : Option Sha}
    {downloads : List SpawnedDownload}
    (canonical :
      ∀ segment ∈ needed, ∃ name, segment.pack = packKey none name)
    (spawns :
      spawnFullDownloads bucketPrefix refName needed baselineSha =
        .ok downloads) :
    ∀ download ∈ downloads,
      Spawned bucketPrefix refName needed download := by
  rcases bind_eq_ok.1 spawns with ⟨packs, mapped, spawns⟩
  have each :
      ∀ download ∈ packs,
        Spawned bucketPrefix refName needed download := by
    intro download member
    rcases exists_of_forall₂ (mapM_eq_ok.1 mapped) member with
      ⟨segment, inside, spawned⟩
    rcases canonical segment inside with ⟨name, same⟩
    rcases spawnSegment_eq_ok.1 spawned with ⟨other, parsed, rfl⟩
    rw [same, shaFromPackKey_packKey] at parsed
    cases parsed
    right
    refine ⟨segment, inside, name, same, ?_⟩
    rw [same, packKeyFromRelative_packKey]
  cases baselineSha with
  | none =>
      cases spawns
      exact each
  | some tip =>
      cases spawns
      intro download member
      rcases List.mem_append.1 member with inside | last
      · exact each download inside
      · exact Or.inl ⟨tip, List.mem_singleton.1 last⟩

theorem safe_downloadPack (key : Text) (moment : Nat) :
    Safe (Contract.flowing Call) (atMoments buckets faults)
      (whenOk fun body _ =>
        ∃ read, (buckets read).body? key = some body)
      (downloadPack key) moment := by
  unfold downloadPack
  apply (safe_getBytes key moment).attempt.andThen
  intro outcome now _ heard
  cases outcome with
  | error error => cases error <;> exact safe_fail
  | ok body =>
      rcases heard with ⟨read, -, -, stored⟩
      exact fun _ _ _ => ⟨read, stored⟩

theorem safe_downloadBaseline (key : Text) (moment : Nat) :
    Safe (Contract.flowing Call) (atMoments buckets faults)
      (whenOk fun body _ =>
        ∃ read, (buckets read).body? key = some body)
      (downloadBaseline key) moment := by
  unfold downloadBaseline
  apply (safe_getBytes key moment).attempt.andThen
  intro outcome now _ heard
  cases outcome with
  | error error => cases error <;> exact safe_fail
  | ok body =>
      rcases heard with ⟨read, -, -, stored⟩
      exact fun _ _ _ => ⟨read, stored⟩

/-- What a download gives is what its file is named. -/
theorem safe_fetch
    (stored :
      ∀ moment, Stored objects contents bucketPrefix (buckets moment))
    {refName : RefName}
    {needed : List ChainSegment}
    {download : SpawnedDownload}
    (spawned : Spawned bucketPrefix refName needed download)
    (moment : Nat) :
    Safe (Contract.flowing Call) (atMoments buckets faults)
      (whenOk fun body _ => FileBody objects contents body download.dest)
      download.fetch moment := by
  rcases spawned with ⟨tip, rfl⟩ | ⟨segment, -, name, -, rfl⟩
  · apply (safe_downloadBaseline _ moment).weaken
    intro outcome _ _ heard
    cases outcome with
    | error error => trivial
    | ok body =>
        rcases heard with ⟨read, there⟩
        simp only [spawnBaseline] at there ⊢
        rw [bundleKey_eq] at there
        exact stored read _ _ there
  · apply (safe_downloadPack _ moment).weaken
    intro outcome _ _ heard
    cases outcome with
    | error error => trivial
    | ok body =>
        rcases heard with ⟨read, there⟩
        rw [packKey_eq] at there
        exact stored read _ _ there

omit [Platform] in
theorem sound_start (needed : List ChainSegment) :
    Sound objects contents needed .start where
  files := fun _ _ found => by cases found
  segments := fun _ _ found => by cases found
  baseline := fun _ _ found => by cases found

theorem Sound.join
    {refName : RefName}
    {needed : List ChainSegment}
    {drained : DrainedDownloads}
    (sound : Sound objects contents needed drained)
    {download : SpawnedDownload}
    (spawned : Spawned bucketPrefix refName needed download)
    {outcome : Except FetchError Body}
    (proper :
      ∀ body, outcome = .ok body →
        FileBody objects contents body download.dest) :
    Sound objects contents needed (drained.join download outcome) := by
  cases outcome with
  | error error => exact ⟨sound.files, sound.segments, sound.baseline⟩
  | ok body =>
      have files :
          Filed objects contents
            (drained.files.insert download.dest body) := by
        intro path other found
        by_cases same : path = download.dest
        · subst same
          rw [AList.lookup_insert] at found
          cases found
          exact proper body rfl
        · rw [AList.lookup_insert_ne same] at found
          exact sound.files path other found
      rcases spawned with ⟨tip, rfl⟩ | ⟨segment, inside, name, same, rfl⟩
      · refine ⟨files, sound.segments, ?_⟩
        intro sha path found
        cases found
        rfl
      · refine ⟨files, ?_, sound.baseline⟩
        intro sha path found
        by_cases own : sha = segment.sha
        · subst own
          rw [DrainedDownloads.join, AList.lookup_insert] at found
          cases found
          exact ⟨segment, inside, rfl, name, same, rfl⟩
        · rw [DrainedDownloads.join, AList.lookup_insert_ne own] at found
          exact sound.segments sha path found

/-- Whatever the order and the moments of the downloads. -/
theorem safe_drainFullDownloads
    {ε : Type}
    (stored :
      ∀ moment, Stored objects contents bucketPrefix (buckets moment))
    {refName : RefName}
    {needed : List ChainSegment}
    {downloads : List SpawnedDownload}
    (spawned :
      ∀ download ∈ downloads,
        Spawned bucketPrefix refName needed download)
    (moment : Nat) :
    Safe (Contract.flowing Call) (atMoments buckets faults)
      (okOr False fun drained _ => Sound objects contents needed drained)
      (drainFullDownloads downloads : Program ε DrainedDownloads)
      moment := by
  unfold drainFullDownloads
  have looped :=
    @safe_foldEach_or Call Reply ε SpawnedDownload DrainedDownloads Nat
      (Contract.flowing Call) (atMoments buckets faults) False
      (fun drained (download : SpawnedDownload) => do
        let outcome ← download.fetch.attempt
        return drained.join download outcome)
      (fun drained remaining _ =>
        Sound objects contents needed drained ∧
          ∀ download ∈ remaining,
            Spawned bucketPrefix refName needed download)
      (fun _ _ _ _ _ holds => holds)
      (by
        rintro drained download remaining now - ⟨sound, others⟩
        have spawned := others download List.mem_cons_self
        apply (safe_fetch stored spawned now).attemptOr.thenOr
        intro outcome _ _ heard _ _ _
        constructor
        · apply sound.join spawned
          rintro body rfl
          exact heard
        · exact fun other member =>
            others other (List.mem_cons_of_mem _ member))
      .start downloads moment ⟨sound_start needed, spawned⟩
  apply looped.weaken
  intro outcome _ _ holds
  cases outcome with
  | error error => exact holds
  | ok drained => exact holds.1

/-! ## Attempts -/

variable
    {ρ : Type}
    {ops : LocalOps ρ}
    {held : ρ → Set Sha}

/-- What a fetch leaves: a success has what the tip of a chain reaches. -/
def Fetched
    (objects : Objects)
    (held : ρ → Set Sha)
    (bucketPrefix : Option Text)
    (buckets : Nat → World)
    (refName : RefName)
    (repo : ρ)
    (start : Nat) : Except (FetchError × ρ) ρ → Nat → Prop
  | .ok later, now =>
      Grown objects held repo later ∧
        ∃ read chain,
          start ≤ read ∧ read < now ∧
            (buckets read).chain? bucketPrefix refName = some chain ∧
              objects.reach chain.tip ⊆ held later
  | .error failure, _ => Grown objects held repo failure.2

theorem Fetched.later
    {refName : RefName}
    {repo : ρ}
    {start now later : Nat}
    {outcome : Except (FetchError × ρ) ρ}
    (fetched :
      Fetched objects held bucketPrefix buckets refName repo start outcome
        now)
    (after : now ≤ later) :
    Fetched objects held bucketPrefix buckets refName repo start outcome
      later := by
  cases outcome with
  | error failure => exact fetched
  | ok last =>
      rcases fetched with ⟨grown, read, chain, since, before, rest⟩
      exact
        ⟨grown, read, chain, since, Nat.lt_of_lt_of_le before after, rest⟩

/-- A later attempt, in what an earlier one has left. -/
theorem Fetched.again
    {refName : RefName}
    {repo left : ρ}
    {start middle now : Nat}
    {outcome : Except (FetchError × ρ) ρ}
    (early : held repo ⊆ held left)
    (since : start ≤ middle)
    (fetched :
      Fetched objects held bucketPrefix buckets refName left middle outcome
        now) :
    Fetched objects held bucketPrefix buckets refName repo start outcome
      now := by
  cases outcome with
  | error failure => exact Grown.trans early fetched
  | ok last =>
      rcases fetched with ⟨grown, read, chain, after, before, rest⟩
      exact
        ⟨.trans early grown, read, chain, Nat.le_trans since after,
          before, rest⟩

/-- A chain that is loaded, or the repository as it was. -/
def Loaded
    (bucketPrefix : Option Text)
    (buckets : Nat → World)
    (refName : RefName)
    (repo : ρ)
    (start : Nat) :
    Except (FetchError × ρ) (Option ChainManifest) → Nat → Prop
  | .ok found, now =>
      ∀ chain, found = some chain →
        ∃ read, start ≤ read ∧ read < now ∧
          (buckets read).chain? bucketPrefix refName = some chain
  | .error failure, _ => failure.2 = repo

theorem safe_loaded
    (refName : RefName)
    (repo : ρ)
    (moment : Nat) :
    Safe (Contract.flowing Call) (atMoments buckets faults)
      (Loaded bucketPrefix buckets refName repo moment)
      ((loadChain bucketPrefix refName).mapError fun error =>
        (FetchError.packchain error, repo))
      moment := by
  apply Safe.mapError
  apply (safe_loadChain refName moment).weaken
  intro outcome _ _ heard
  cases outcome with
  | error error => rfl
  | ok found => exact heard

omit [Platform] in
/-- The segments needed are those above one that is there. -/
theorem selectNeededSegments_split
    (repo : ρ)
    (segments : List ChainSegment) :
    ∃ rest,
      segments = (selectNeededSegments ops repo segments).1 ++ rest ∧
        ∀ older ∈ rest.head?, ops.contains repo older.sha = true := by
  induction segments with
  | nil => exact ⟨[], rfl, by simp⟩
  | cons segment older hypothesis =>
      unfold selectNeededSegments
      split
      next there =>
          refine ⟨segment :: older, rfl, ?_⟩
          rintro first ⟨⟩
          exact there
      · rcases hypothesis with ⟨rest, split, anchored⟩
        exact ⟨rest, congrArg (segment :: ·) split, anchored⟩

omit [Platform] in
/-- Installing what is needed of a chain brings all its tip reaches. -/
theorem tip_of_installed
    (holding : Holding ops contents held)
    {chain : ChainManifest}
    (complete : Complete objects contents chain)
    {repo later : ρ}
    {needed rest : List ChainSegment}
    (split : chain.segments = needed ++ rest)
    (anchored :
      ∀ older ∈ rest.head?, ops.contains repo older.sha = true)
    (installed : Installed objects held repo needed (.ok later)) :
    objects.reach chain.tip ⊆ held later := by
  rcases Option.map_eq_some_iff.1 complete.newest with
    ⟨newest, first, tip⟩
  rw [← tip]
  rw [split] at first
  cases needed with
  | nil =>
      apply installed.1.has
      exact holding.contains _ _ (anchored newest first)
  | cons head others =>
      cases first
      exact installed.2 _ List.mem_cons_self

omit [Platform] in
theorem floor_subset
    (holding : Holding ops contents held)
    {repo : ρ}
    (closed : Closed objects.links (held repo))
    {rest : List ChainSegment}
    (anchored :
      ∀ older ∈ rest.head?, ops.contains repo older.sha = true) :
    floor objects rest ⊆ held repo := by
  cases rest with
  | nil => exact Set.empty_subset _
  | cons older others =>
      exact
        closed.reach_subset
          (holding.contains _ _ (anchored older rfl))

/-- No two segments of a stored chain have one name. -/
def Distinct (bucketPrefix : Option Text) (world : World) : Prop :=
  ∀ refName chain,
    world.chain? bucketPrefix refName = some chain →
      (chain.segments.map ChainSegment.sha).Nodup

section Attempts

variable
    (holding : Holding ops contents held)
    (stored :
      ∀ moment, Stored objects contents bucketPrefix (buckets moment))
    (distinct : ∀ moment, Distinct bucketPrefix (buckets moment))
    (refName : RefName)

include holding stored

theorem safe_fetchFull
    {needed rest : List ChainSegment}
    (canonical :
      ∀ segment ∈ needed, ∃ name, segment.pack = packKey none name)
    (different : (needed.map ChainSegment.sha).Nodup)
    (layered :
      needed = [] ∨ Layered objects contents (needed ++ rest))
    {repo : ρ}
    (closed : Closed objects.links (held repo))
    (based : floor objects rest ⊆ held repo)
    (completion : Completion)
    (baselineSha : Option Sha)
    (moment : Nat) :
    Safe (Contract.flowing Call) (atMoments buckets faults)
      (fun outcome _ => Installed objects held repo needed outcome)
      (fetchFull ops bucketPrefix completion refName repo needed
        baselineSha)
      moment := by
  unfold fetchFull
  split
  next nothing =>
      intro _ _ _
      rw [Bool.and_eq_true, List.isEmpty_iff] at nothing
      rw [nothing.1]
      refine ⟨.refl closed, fun segment member => ?_⟩
      cases member
  · split
    · exact fun _ _ _ => Grown.refl closed
    next downloads spawns =>
        have spawned := spawned_of_spawns canonical spawns
        apply
          (safe_drainFullDownloads stored
            (fun download member =>
              spawned download
                ((completion.mem_arrange).1 member))
            moment).bind
        · intro drained now _ sound
          split
          · exact fun _ _ _ => Grown.refl closed
          · apply safe_ofExcept
            intro _ _ _
            exact
              installed_installDrained holding sound different layered
                closed based
        · exact fun _ _ _ failed => failed.elim

include distinct

/-- One attempt at a full fetch. -/
theorem safe_fetchOnce
    {repo : ρ}
    (closed : Closed objects.links (held repo))
    (completion : Completion)
    (sha : Sha)
    (moment : Nat) :
    Safe (Contract.flowing Call) (atMoments buckets faults)
      (Fetched objects held bucketPrefix buckets refName repo moment)
      (fetchOnce ops bucketPrefix completion refName sha none repo)
      moment := by
  unfold fetchOnce
  apply (safe_loaded refName repo moment).bind
  case stop =>
      rintro ⟨error, left⟩ _ - rfl
      exact Grown.refl closed
  case resume =>
      intro found now _ heard
      cases found with
      | none => exact fun _ _ _ => Grown.refl closed
      | some chain =>
          rcases heard chain rfl with ⟨read, after, before, there⟩
          have written := ((World.chain?_eq_some_iff _ _).1 there).1
          rw [chainKey_eq] at written
          rcases stored read _ _ written chain rfl with
            ⟨complete, canonical⟩
          rcases selectNeededSegments_split repo chain.segments with
            ⟨rest, split, anchored⟩
          have different := distinct read refName chain there
          have layered := complete.layered
          dsimp only
          generalize selectNeededSegments ops repo chain.segments =
            selected at split
          rw [split] at canonical different layered
          rw [List.map_append] at different
          have fetches :=
            @safe_fetchFull _ _ _ _ buckets faults _ _ _ holding stored
              refName selected.1 rest
              (fun segment member =>
                canonical segment (List.mem_append_left _ member))
              different.of_append_left (Or.inr layered) repo closed
              (floor_subset holding closed anchored) completion
              (if selected.2 then some chain.fullAt else none) now
          apply fetches.since.weaken
          rintro outcome later - ⟨installed, since⟩
          cases outcome with
          | error failure => exact installed
          | ok last =>
              refine ⟨installed.1, read, chain, after, ?_, there, ?_⟩
              · exact Nat.lt_of_lt_of_le before since
              · exact
                  tip_of_installed holding complete split anchored
                    installed

/-- What follows a missing pack that the chain has let go of. -/
theorem safe_retried
    {repo : ρ}
    (closed : Closed objects.links (held repo))
    (completion : Completion)
    (sha : Sha)
    (moment : Nat)
    (next : Text → ρ → Program (FetchError × ρ) ρ)
    (resumes :
      ∀ key left middle,
        moment ≤ middle →
        Grown objects held repo left →
          Safe (Contract.flowing Call) (atMoments buckets faults)
            (Fetched objects held bucketPrefix buckets refName repo moment)
            (next key left) middle) :
    Safe (Contract.flowing Call) (atMoments buckets faults)
      (Fetched objects held bucketPrefix buckets refName repo moment)
      (do
        match ← (fetchOnce ops bucketPrefix completion refName sha none
            repo).attempt with
        | .ok fetched => return fetched
        | .error (.packchain (.packMissing key), left) => do
            match ← (loadChain bucketPrefix refName).mapError
                fun error => (FetchError.packchain error, left) with
            | none =>
                .fail (.packchain (.chainAbsent refName.text), left)
            | some reloaded =>
                match chainReferencesPackKey bucketPrefix reloaded key with
                | .error error => .fail (.packchain error, left)
                | .ok true => .fail (.packchain (.packMissing key), left)
                | .ok false => next key left
        | .error (error, left) => .fail (error, left))
      moment := by
  have first :=
    @safe_fetchOnce _ _ _ _ _ faults _ _ _ holding stored distinct
      refName repo closed completion sha moment
  refine
    first.since.attemptOr.bind ?_
      fun _ _ _ (impossible : False) => impossible.elim
  rintro outcome now - ⟨fetched, since⟩
  split
  · exact fun _ later _ => fetched.later later
  next key left =>
      apply (safe_loaded refName left now).since.bind
      case stop =>
          rintro ⟨error, other⟩ _ - ⟨rfl, -⟩
          exact fetched
      case resume =>
          rintro found middle - ⟨-, later⟩
          have resumed :=
            resumes key left middle (Nat.le_trans since later) fetched
          cases found with
          | none => exact fun _ _ _ => fetched
          | some reloaded =>
              dsimp only
              split
              · exact fun _ _ _ => fetched
              · exact fun _ _ _ => fetched
              · exact resumed
  · exact fun _ _ _ => fetched

/-- A full fetch, with its retries. -/
theorem safe_fetchWithPackMissingRetries
    (completions : Nat → Completion)
    (sha : Sha)
    (remaining : Nat)
    {repo : ρ}
    (closed : Closed objects.links (held repo))
    (moment : Nat) :
    Safe (Contract.flowing Call) (atMoments buckets faults)
      (Fetched objects held bucketPrefix buckets refName repo moment)
      (fetchWithPackMissingRetries ops bucketPrefix completions refName sha
        none remaining repo)
      moment := by
  induction remaining generalizing repo moment with
  | zero =>
      unfold fetchWithPackMissingRetries
      apply
        safe_retried holding stored distinct refName closed _ sha moment
          fun key left =>
            .fail
              (.packchain
                (.concurrentGcRetriesExhausted key packMissingMaxRetries),
                left)
      exact fun _ _ _ _ grown _ _ _ => grown
  | succ remaining hypothesis =>
      unfold fetchWithPackMissingRetries
      apply
        safe_retried holding stored distinct refName closed _ sha moment
          fun _ left =>
            fetchWithPackMissingRetries ops bucketPrefix completions
              refName sha none remaining left
      intro _ left middle since grown
      apply (hypothesis grown.closed middle).weaken
      exact fun _ _ _ fetched => fetched.again grown.grows since

end Attempts

/-! ## Sessions -/

/-- What a helper's session does next. -/
inductive Visit where
  /-- `fetch <sha> <ref>`, its downloads completing in some order. -/
  | fetch (refName : RefName) (sha : Sha) (completions : Nat → Completion)
  /-- Time passes. -/
  | wait (duration : Nat)
  /-- The helper has ended, and is started again. -/
  | restart

/-- The moment, and the session at it. -/
abbrev Sitting (ρ : Type) : Type :=
  Nat × FetchSession ρ

/-- The session after a fetch, which may have failed. -/
def FetchSession.after :
    Except (FetchError × FetchSession ρ) (FetchSession ρ) → FetchSession ρ
  | .ok later => later
  | .error failure => failure.2

/-- Fetches one after the other, each without a depth. -/
def sessions
    (ops : LocalOps ρ)
    (bucketPrefix : Option Text)
    (buckets : Nat → World)
    (faults : Nat → Option ObjectStoreError) :
    Machine (Sitting ρ) Visit
  | (moment, session), .fetch refName sha completions =>
      let ended :=
        run (atMoments buckets faults)
          (fetchOne ops bucketPrefix completions refName sha none session)
          moment
      some (ended.2, FetchSession.after ended.1)
  | (moment, session), .wait duration =>
      some (moment + duration, session)
  | (moment, session), .restart =>
      some (moment, ⟨session.repo, [], []⟩)

/-- What a fetch in a session leaves. -/
def Visited
    (objects : Objects)
    (held : ρ → Set Sha)
    (bucketPrefix : Option Text)
    (buckets : Nat → World)
    (refName : RefName)
    (sha : Sha)
    (session : FetchSession ρ)
    (start : Nat) :
    Except (FetchError × FetchSession ρ) (FetchSession ρ) → Nat → Prop
  | .ok later, now =>
      Grown objects held session.repo later.repo ∧
        (sha ∈ session.fetchedRefs ∨
          ∃ read chain,
            start ≤ read ∧ read < now ∧
              (buckets read).chain? bucketPrefix refName = some chain ∧
                objects.reach chain.tip ⊆ held later.repo)
  | .error failure, _ => Grown objects held session.repo failure.2.repo

theorem safe_fetchOne_none
    (holding : Holding ops contents held)
    (stored :
      ∀ moment, Stored objects contents bucketPrefix (buckets moment))
    (distinct : ∀ moment, Distinct bucketPrefix (buckets moment))
    (refName : RefName)
    (sha : Sha)
    (completions : Nat → Completion)
    {session : FetchSession ρ}
    (closed : Closed objects.links (held session.repo))
    (moment : Nat) :
    Safe (Contract.flowing Call) (atMoments buckets faults)
      (Visited objects held bucketPrefix buckets refName sha session
        moment)
      (fetchOne ops bucketPrefix completions refName sha none session)
      moment := by
  unfold fetchOne
  dsimp only
  split
  next fetched =>
      exact fun _ _ _ => ⟨.refl closed, Or.inl fetched⟩
  · have fetches :=
      @safe_fetchWithPackMissingRetries _ _ _ _ _ faults _ _ _ holding
        stored distinct refName completions sha packMissingMaxRetries
        session.repo closed moment
    have renamed :
        Safe (Contract.flowing Call) (atMoments buckets faults)
          (fun outcome now =>
            match outcome with
            | .ok later =>
                Fetched objects held bucketPrefix buckets refName
                  session.repo moment (.ok later) now
            | .error failure =>
                Grown objects held session.repo failure.2.repo)
          ((fetchWithPackMissingRetries ops bucketPrefix completions
              refName sha none packMissingMaxRetries
              session.repo).mapError
            fun failure =>
              (failure.1, { session with repo := failure.2 }))
          moment := by
      apply Safe.mapError
      apply fetches.weaken
      intro outcome _ _ fetched
      cases outcome with
      | ok later => exact fetched
      | error failure => exact fetched
    apply renamed.bind
    · intro later now _ fetched last after _
      rcases fetched.later after with ⟨grown, rest⟩
      exact ⟨grown, Or.inr rest⟩
    · exact fun _ _ _ grown => grown

/-- A session keeps its repository closed, whatever fails in it. -/
theorem grown_of_visits
    (holding : Holding ops contents held)
    (stored :
      ∀ moment, Stored objects contents bucketPrefix (buckets moment))
    (distinct : ∀ moment, Distinct bucketPrefix (buckets moment))
    {start : Nat}
    {repo : ρ}
    (closed : Closed objects.links (held repo))
    {sitting : Sitting ρ}
    (visited :
      (sessions ops bucketPrefix buckets faults).Reaches
        (fun _ _ => True) (start, ⟨repo, [], []⟩) sitting) :
    Grown objects held repo sitting.2.repo := by
  refine
    @Machine.Reaches.invariant _ _ _ _ _
      (fun sitting => Grown objects held repo sitting.2.repo)
      (.refl closed) ?_ _ visited
  · rintro ⟨moment, session⟩ visit next grown - stepped
    cases visit with
    | wait duration =>
        cases stepped
        exact grown
    | restart =>
        cases stepped
        exact grown
    | fetch refName sha completions =>
        cases stepped
        have fetched :=
          (@safe_fetchOne_none _ _ _ _ _ faults _ _ _ holding stored
            distinct refName sha completions session grown.closed
            moment).run_drifting
        dsimp only
        generalize
          run (atMoments buckets faults)
            (fetchOne ops bucketPrefix completions refName sha none
              session) moment = ended at fetched
        rcases ended with ⟨outcome, now⟩
        cases outcome with
        | ok later => exact .trans grown.grows fetched.1
        | error failure => exact .trans grown.grows fetched

/--
Whatever truthful clients push and a collector takes in between, and whatever
fails, full fetches keep a repository closed, and one that succeeds without
having been made before has everything the tip of the chain it read reaches.
-/
theorem fetches_complete
    {packer : Packer}
    (exact : packer.Exact objects contents)
    (holding : Holding ops contents held)
    {ι : Type}
    [DecidableEq ι]
    {plan : FaultPlan Call ObjectStoreError}
    {clock : Int}
    (left :
      ∀ moment,
        ∃ pool :
            Pool ι Ownership.Command Call Reply Unit Empty (World × Nat),
          (Ownership.clients bucketPrefix plan ι).Reaches
            (fun pool action =>
              pool.Meets Ownership.Any action ∧
                StartsHonest packer objects contents action)
            (.quiet (.empty clock, 0)) pool ∧
            pool.state.1 = buckets moment)
    (distinct : ∀ moment, Distinct bucketPrefix (buckets moment))
    {start moment : Nat}
    {repo : ρ}
    (closed : Closed objects.links (held repo))
    {session : FetchSession ρ}
    (visited :
      (sessions ops bucketPrefix buckets faults).Reaches
        (fun _ _ => True) (start, ⟨repo, [], []⟩) (moment, session))
    (refName : RefName)
    (sha : Sha)
    (completions : Nat → Completion) :
    Grown objects held repo session.repo ∧
      ∀ later now,
        run (atMoments buckets faults)
            (fetchOne ops bucketPrefix completions refName sha none session)
            moment =
          (.ok later, now) →
        sha ∈ session.fetchedRefs ∨
          ∃ read chain,
            moment ≤ read ∧ read < now ∧
              (buckets read).chain? bucketPrefix refName = some chain ∧
                objects.reach chain.tip ⊆ held later.repo := by
  have stored :
      ∀ moment,
        Stored objects contents bucketPrefix (buckets moment) := by
    intro moment
    rcases left moment with ⟨pool, reached, same⟩
    rw [← same]
    exact stored_of_reached exact reached
  have grown := grown_of_visits holding stored distinct closed visited
  refine ⟨grown, fun later now ran => ?_⟩
  have fetched :=
    (@safe_fetchOne_none _ _ _ _ _ faults _ _ _ holding stored distinct
      refName sha completions session grown.closed moment).run_drifting
  rw [show run (drifting answer failed buckets faults) _ moment = _ from
    ran] at fetched
  exact fetched.2

end Buckets

/-! ## A clone -/

section Clones

attribute [local instance] Platform.simple

/-- A repository that takes whatever a file has in it. -/
def LocalOps.taking (contents : Contents) : LocalOps (Finset Sha) where
  contains := fun repo sha => decide (sha ∈ repo)
  unbundleAt := fun repo body =>
    match body with
    | .file bytes =>
        match contents.bundleObjects bytes with
        | some found => .ok (repo ∪ found)
        | none => .error .io
    | _ => .error .io
  installPack := fun repo body =>
    match body with
    | .file bytes =>
        match contents.packObjects bytes with
        | some found => .ok (repo ∪ found)
        | none => .error .io
    | _ => .error .io
  shallowBoundaries := fun _ _ _ => .ok []

theorem holding_taking (contents : Contents) :
    Holding (LocalOps.taking contents) contents
      fun repo => (repo : Set Sha) where
  contains := fun _ _ there => of_decide_eq_true there
  unbundleAt := by
    intro repo bytes found later reads unbundled
    simp only [LocalOps.taking, reads, Except.ok.injEq] at unbundled
    rw [← unbundled, Finset.coe_union]
  installPack := by
    intro repo bytes found later reads installed
    simp only [LocalOps.taking, reads, Except.ok.injEq] at installed
    rw [← installed, Finset.coe_union]

/-- Whether the chains of a bucket name each segment once. -/
def distinctChains (world : World) : Bool :=
  world.bucket.entries.all fun entry =>
    match entry.2.body with
    | .chain chain =>
        decide (chain.segments.map ChainSegment.sha).Nodup
    | _ => true

theorem distinct_of_distinctChains
    {world : World}
    (checked : distinctChains world = true)
    (bucketPrefix : Option Text) :
    Distinct bucketPrefix world := by
  intro refName chain found
  have stored := ((World.chain?_eq_some_iff _ _).1 found).1
  rcases Option.map_eq_some_iff.1 stored with ⟨object, there, body⟩
  unfold distinctChains at checked
  rw [List.all_eq_true] at checked
  have each := checked _ (AList.mem_lookup_iff.1 there)
  simp only [body] at each
  exact of_decide_eq_true each

/-- A fetch of a bucket that stays as it is, after a failed call. -/
def cloned (world : World) :
    Except (FetchError × FetchSession (Finset Sha))
        (FetchSession (Finset Sha)) × Nat :=
  run (atMoments (fun _ => world) fun _ => none)
    (fetchOne (LocalOps.taking .digits) none (fun _ => .reversed) .main
      (digitSha 'b' hex_b) none ⟨∅, [], []⟩)
    0

theorem fetches_complete_cloned :
    ∃ pool later now read chain,
      (Ownership.clients none lostChain Nat).schedule?
          (fun pool => pool.Meets Ownership.Any) brokenOff
          (.quiet (.empty 0, 0)) = some pool ∧
        cloned pool.state.1 = (.ok later, now) ∧
        read < now ∧
        pool.state.1.chain? none .main = some chain ∧
        smallObjects.reach chain.tip ⊆ (later.repo : Set Sha) := by
  have executed :
      ((Ownership.clients none lostChain Nat).schedule?
          (fun pool => pool.Meets Ownership.Any) brokenOff
          (.quiet (.empty 0, 0))).map
        (fun pool =>
          (distinctChains pool.state.1, (cloned pool.state.1).1.isOk)) =
        some (true, true) := by
    decide +kernel
  rcases Option.map_eq_some_iff.1 executed with ⟨pool, reached, known⟩
  simp only [Prod.mk.injEq] at known
  rcases known with ⟨checked, fetched⟩
  cases ran : cloned pool.state.1 with
  | mk outcome now =>
  cases outcome with
  | error failure =>
      rw [ran] at fetched
      cases fetched
  | ok later =>
      have complete :=
        (fetches_complete
          (exact_checked smallObjects smallBound)
          (holding_taking .digits)
          (fun _ =>
            ⟨pool,
              System.Reaches.refl.scheduled startsHonest_brokenOff reached,
              rfl⟩)
          (fun _ => distinct_of_distinctChains checked none)
          (by
            intro sha inside
            rw [Finset.coe_empty] at inside
            cases inside)
          (@Machine.Reaches.refl _ _
            (sessions (LocalOps.taking .digits) none
              (fun _ => pool.state.1) fun _ => none)
            _ (0, ⟨∅, [], []⟩))
          .main (digitSha 'b' hex_b) fun _ => .reversed).2
          later now ran
      rcases complete with before | ⟨read, chain, -, within, found, has⟩
      · cases before
      · exact
          ⟨pool, later, now, read, chain, reached, ran, within, found, has⟩

end Clones

end GitRemoteObjectStore.FetchClosure
