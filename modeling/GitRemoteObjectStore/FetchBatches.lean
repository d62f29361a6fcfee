import GitRemoteObjectStore.BundleFetch

/-!
# What fetch batches leave in a repository

The tasks of a batch interleave at single calls, while other clients change
the bucket and any call may fail.  The repository stays closed and loses
nothing; every name the session has fetched has all that it reaches.  A batch
that succeeds has fetched every name it was asked for, and with a depth the
shallow file then names the commits at that depth and the old boundaries that
still are some.
-/

namespace GitRemoteObjectStore.FetchBatches

open CallProgram Prog Closure BreadthFirst BundleFetch
open GitRemoteObjectStore.ChainClosure Provenance
open Repl (Depth)

/-! ## Installing a bundle -/

/-- Installing a bundle adds its objects, or fails before or after that. -/
def Unbundles
    (contents : Contents)
    (unbundleAt : Odb → Body → Except GitError Unit × Odb) : Prop :=
  ∀ odb bytes found,
    contents.bundleObjects bytes = some found →
      (unbundleAt odb (.file bytes)).2 = odb ∪ found ∨
        (unbundleAt odb (.file bytes)).2 = odb ∧
          (unbundleAt odb (.file bytes)).1 ≠ .ok ()

/-- `bundle::unbundle` is such an installation. -/
theorem unbundles_unbundle
    {contents : Contents}
    {packObjects : List UInt8 → Option (Finset Sha)}
    (agrees :
      ∀ bytes header,
        (BundleHeader.read bytes).1 = .ok header →
          contents.bundleObjects bytes =
            packObjects (bytes.drop header.packOffset))
    (io : UnbundleIo) :
    Unbundles contents fun odb body =>
      match body with
      | .file bytes => unbundle packObjects io odb bytes
      | _ => (.error .bundle, odb) := by
  intro odb bytes found reads
  simp only [unbundle]
  cases io.prepared with
  | error error => exact Or.inr ⟨rfl, nofun⟩
  | ok done =>
      cases read : (BundleHeader.read bytes).1 with
      | error error => exact Or.inr ⟨rfl, nofun⟩
      | ok header =>
          simp only
          split
          · exact Or.inr ⟨rfl, nofun⟩
          rw [← agrees bytes header read, reads]
          cases io.written with
          | error error => exact Or.inr ⟨rfl, nofun⟩
          | ok done => exact Or.inl rfl

/-! ## Where a history is cut off -/

/-- One tag after another leads from a name to another. -/
def TagsTo (objects : Objects) : Sha → Sha → Prop :=
  Relation.ReflTransGen fun tag target =>
    objects.object? tag = some (.tag target)

/-- A name is no tag's. -/
def Untagged (objects : Objects) (sha : Sha) : Prop :=
  ∀ target, objects.object? sha ≠ some (.tag target)

/-- Chains of tags from one name end in one object. -/
theorem TagsTo.unique
    {objects : Objects}
    {sha first second : Sha}
    (left : TagsTo objects sha first)
    (right : TagsTo objects sha second)
    (ends : Untagged objects first)
    (ends' : Untagged objects second) :
    first = second := by
  induction left using Relation.ReflTransGen.head_induction_on with
  | refl =>
      rcases Relation.ReflTransGen.cases_head right with
        same | ⟨target, tag, -⟩
      · exact same
      · exact absurd tag (ends target)
  | head tag further hypothesis =>
      rcases Relation.ReflTransGen.cases_head right with
        rfl | ⟨target, tag', rest⟩
      · exact absurd tag (ends' _)
      · rw [tag] at tag'
        cases tag'
        exact hypothesis rest

theorem tagsTo_of_peelFrom
    {objects : Objects}
    {odb : Odb}
    {bound : Nat}
    {tagChain : List Sha}
    {current : Sha}
    {peeled : PeeledTip}
    (peels : peelFrom objects odb bound tagChain current = .ok peeled) :
    TagsTo objects current peeled.leaf := by
  induction bound generalizing tagChain current with
  | zero => cases peels
  | succ bound hypothesis =>
      unfold peelFrom at peels
      split at peels
      · cases peels
      split at peels
      · cases peels
      · cases peels
        exact .refl
      next target known =>
          exact .head (findObject_ok.1 known).2 (hypothesis peels)
      · cases peels
        exact .refl
      · cases peels
        exact .refl

/-- A history is cut off at the commits at a distance from its tip. -/
def CutOff
    (objects : Objects)
    (depth : Depth)
    (sha oid : Sha) : Prop :=
  ∃ commit root parents,
    TagsTo objects sha commit ∧
      objects.object? commit = some (.commit root parents) ∧
        oid ∈ sphere objects.parents commit (depth.value - 1)

/-- What a search from a commit collects. -/
theorem mem_search_iff
    {objects : Objects}
    {odb : Odb}
    {commit root : Sha}
    {parents : List Sha}
    (known : objects.object? commit = some (.commit root parents))
    {depth : Depth}
    {frontier : List Sha}
    (searched :
      search (parentIds objects odb) depth.value
          (enough objects.parents odb) [(commit, 1)] [] [] =
        .ok frontier)
    (oid : Sha) :
    oid ∈ frontier ↔
      oid ∈ sphere objects.parents commit (depth.value - 1) := by
  have start : objects.OfCommit commit := by
    intro object found
    rw [known] at found
    cases found
    rfl
  have expands :
      ∀ sha ∈ ball objects.parents commit (depth.value - 1),
        ∀ nexts,
          parentIds objects odb sha = .ok nexts →
            nexts = objects.parents sha ∧ sha ∈ odb := by
    rintro sha ⟨steps, -, reached⟩ nexts read
    have isCommit := ofCommit_of_level start reached
    rcases (parentIds_ofCommit isCommit).1 ⟨nexts, read⟩ with
      ⟨object, found⟩
    rcases findObject_ok.1 found with ⟨inside, named⟩
    have kind := isCommit object named
    cases object with
    | commit root parents =>
        rw [parentIds_commit named inside] at read
        cases read
        exact ⟨by rw [Objects.parents, named], inside⟩
    | _ => cases kind
  have ends := search_from expands depth.positive
  rw [searched] at ends
  cases ends with
  | found found => exact found.frontier oid

/-- The boundaries of a name are the commits it is cut off at. -/
theorem mem_shallowBoundaries_iff
    {objects : Objects}
    {odb : Odb}
    {depth : Depth}
    {sha : Sha}
    {ids : List Sha}
    (found : shallowBoundaries objects odb sha depth.value = .ok ids)
    (oid : Sha) :
    oid ∈ ids ↔ CutOff objects depth sha oid := by
  unfold shallowBoundaries at found
  cases peels : peelTagChain objects odb sha with
  | error error =>
      rw [peels] at found
      cases found
  | ok peeled =>
      have tags : TagsTo objects sha peeled.leaf := tagsTo_of_peelFrom peels
      have kinded := (peelTagChain_ok peels).kinded
      have uncut
          (ends : Untagged objects peeled.leaf)
          (noCommit :
            ∀ root parents,
              objects.object? peeled.leaf ≠
                some (.commit root parents)) :
          ¬ CutOff objects depth sha oid := by
        rintro ⟨commit, root, parents, leads, known, -⟩
        have same : peeled.leaf = commit := by
          apply tags.unique leads ends
          intro target tag
          rw [known] at tag
          cases tag
        exact noCommit root parents (same ▸ known)
      rw [peels] at found
      cases peeled with
      | commit commit tagChain =>
          rcases kinded with ⟨root, parents, known⟩
          rw [mem_search_iff known found]
          constructor
          · exact fun cut => ⟨commit, root, parents, tags, known, cut⟩
          · rintro ⟨other, _, _, leads, commit?, cut⟩
            have same : commit = other := by
              apply tags.unique leads
              · intro target tag
                rw [PeeledTip.leaf, known] at tag
                cases tag
              · intro target tag
                rw [commit?] at tag
                cases tag
            exact same ▸ cut
      | tree tree tagChain =>
          rcases kinded with ⟨entries, known⟩
          cases found
          refine iff_of_false List.not_mem_nil (uncut ?_ ?_)
          · intro target tag
            rw [PeeledTip.leaf, known] at tag
            cases tag
          · intro root parents commit
            rw [PeeledTip.leaf, known] at commit
            cases commit
      | blob blob tagChain =>
          rcases kinded with ⟨content, known⟩
          cases found
          refine iff_of_false List.not_mem_nil (uncut ?_ ?_)
          · intro target tag
            rw [PeeledTip.leaf, known] at tag
            cases tag
          · intro root parents commit
            rw [PeeledTip.leaf, known] at commit
            cases commit

/-! ## A session -/

section Sessions

variable
    [Platform]
    {objects : Objects}
    {contents : Contents}
    {bucketPrefix : Option Text}
    {around : Surroundings}
    {depth : Option Depth}
    {cmds : List Text}

/-- A name that a command of the batch asks for. -/
def Asked (cmds : List Text) (sha : Sha) : Prop :=
  ∃ cmd ∈ cmds, ∃ refName, parseFetchArgs cmd = .ok (sha, refName)

/-- A closed repository with all that was fetched; only asked for cuts. -/
structure Sound
    (objects : Objects)
    (depth : Option Depth)
    (cmds : List Text)
    (session : Session) : Prop where
  closed : Closed objects.links (session.odb : Set Sha)
  fetched :
    ∀ sha ∈ session.fetchedRefs,
      objects.reach sha ⊆ (session.odb : Set Sha)
  cuts :
    ∀ oid ∈ session.boundaries, ∃ sha limit,
      Asked cmds sha ∧ depth = some limit ∧ CutOff objects limit sha oid

/-- A session loses nothing. -/
structure Grows (session later : Session) : Prop where
  odb : session.odb ⊆ later.odb
  fetchedRefs : session.fetchedRefs ⊆ later.fetchedRefs
  boundaries : session.boundaries ⊆ later.boundaries

omit [Platform] in
theorem Grows.refl (session : Session) : Grows session session :=
  ⟨Finset.Subset.refl _, List.Subset.refl _, List.Subset.refl _⟩

omit [Platform] in
theorem Grows.trans
    {first second third : Session}
    (early : Grows first second)
    (late : Grows second third) :
    Grows first third :=
  ⟨early.odb.trans late.odb,
    List.Subset.trans early.fetchedRefs late.fetchedRefs,
    List.Subset.trans early.boundaries late.boundaries⟩

/-- The terms the tasks of a batch run under. -/
abbrev sharing
    (objects : Objects)
    (depth : Option Depth)
    (cmds : List Text) : Contract FetchCall Session :=
  Contract.among (Sound objects depth cmds) Grows Grows.refl
    fun _ _ _ => Grows.trans

/-- A session that gained only time is as sound as before. -/
theorem Sound.same
    {session later : Session}
    (sound : Sound objects depth cmds session)
    (odb : later.odb = session.odb)
    (fetchedRefs : later.fetchedRefs = session.fetchedRefs)
    (boundaries : later.boundaries = session.boundaries) :
    Sound objects depth cmds later ∧ Grows session later := by
  cases session
  cases later
  cases odb
  cases fetchedRefs
  cases boundaries
  exact
    ⟨⟨sound.closed, sound.fetched, sound.cuts⟩,
      ⟨Finset.Subset.refl _, List.Subset.refl _, List.Subset.refl _⟩⟩

theorem Sound.next
    {session : Session}
    (sound : Sound objects depth cmds session) :
    Sound objects depth cmds session.next ∧ Grows session session.next :=
  sound.same rfl rfl rfl

/-- The objects of a whole bundle keep a repository closed. -/
theorem Sound.install
    {session : Session}
    (sound : Sound objects depth cmds session)
    {sha : Sha}
    {found : Finset Sha}
    (whole : (found : Set Sha) = objects.reach sha) :
    Sound objects depth cmds
        { session.next with odb := session.odb ∪ found } ∧
      Grows session { session.next with odb := session.odb ∪ found } := by
  have grows := @Finset.subset_union_left _ _ session.odb found
  refine ⟨⟨?_, ?_, sound.cuts⟩, ⟨grows, ?_, ?_⟩⟩
  · rw [Finset.coe_union, whole]
    rintro source (old | fresh) target linked
    · exact Or.inl (sound.closed source old target linked)
    · exact Or.inr (closed_reach sha source fresh target linked)
  · intro other member
    exact
      (sound.fetched other member).trans (Finset.coe_subset.2 grows)
  · exact List.Subset.refl _
  · exact List.Subset.refl _

/-- A name all of whose objects are there may be noted as fetched. -/
theorem Sound.insert
    {session : Session}
    (sound : Sound objects depth cmds session)
    {sha : Sha}
    (whole : objects.reach sha ⊆ (session.odb : Set Sha)) :
    Sound objects depth cmds
        { session.next with fetchedRefs := sha :: session.fetchedRefs } ∧
      Grows session
        { session.next with
          fetchedRefs := sha :: session.fetchedRefs } := by
  refine
    ⟨⟨sound.closed, ?_, sound.cuts⟩,
      ⟨Finset.Subset.refl _, List.subset_cons_self _ _,
        List.Subset.refl _⟩⟩
  intro other member
  rcases List.mem_cons.1 member with rfl | member
  · exact whole
  · exact sound.fetched other member

/-- The cuts of a name that is asked for may be collected. -/
theorem Sound.extend
    {session : Session}
    (sound : Sound objects depth cmds session)
    {sha : Sha}
    (asked : Asked cmds sha)
    {limit : Depth}
    (deep : depth = some limit)
    {ids : List Sha}
    (cut : ∀ oid ∈ ids, CutOff objects limit sha oid) :
    Sound objects depth cmds
        { session.next with boundaries := session.boundaries ++ ids } ∧
      Grows session
        { session.next with boundaries := session.boundaries ++ ids } := by
  refine
    ⟨⟨sound.closed, sound.fetched, ?_⟩,
      ⟨Finset.Subset.refl _, List.Subset.refl _,
        List.subset_append_left _ _⟩⟩
  intro oid member
  rcases List.mem_append.1 member with old | fresh
  · exact sound.cuts oid old
  · exact ⟨sha, limit, asked, deep, cut oid fresh⟩

/-! ## A task -/

/-- The buckets hold whole bundles, and installing them works as it does. -/
structure Supplied
    (objects : Objects)
    (contents : Contents)
    (bucketPrefix : Option Text)
    (around : Surroundings) : Prop where
  stored :
    ∀ moment,
      Stored objects contents bucketPrefix (around.buckets moment)
  unbundles : ∀ moment, Unbundles contents (around.unbundleAt moment)

variable (supplied : Supplied objects contents bucketPrefix around)

include supplied in
/-- A name is noted as fetched once its bundle is installed. -/
theorem safe_installBundle
    (sha : Sha)
    (refName : RefName)
    (session : Session) :
    Safe (sharing objects depth cmds) (serve objects around)
      (whenOk fun _ later => sha ∈ later.fetchedRefs)
      (installBundle bucketPrefix sha refName) session := by
  intro downloading _ sound _
  refine ⟨sound.next, ?_⟩
  simp only [serve]
  cases heard :
      (FetchClosure.atMoments around.buckets around.faults
        (.get (bundleKey bucketPrefix refName sha))
        downloading.moment).1 with
  | error error => exact fun _ _ _ => trivial
  | ok body =>
      have stored := FetchClosure.body?_of_heard heard
      rw [bundleKey_eq] at stored
      have bundle : BundleBody objects contents sha body :=
        supplied.stored downloading.moment _ body stored
      rcases bundle with ⟨bytes, rfl, found, reads, whole⟩
      intro installing _ sound _
      have unbundles :=
        supplied.unbundles installing.moment installing.odb bytes found
          reads
      simp only [serve]
      rcases unbundles with added | ⟨same, failed⟩
      · rw [added]
        refine ⟨sound.install whole, ?_⟩
        cases (around.unbundleAt installing.moment installing.odb
            (.file bytes)).1 with
        | error error => exact fun _ _ _ => trivial
        | ok done =>
            intro noting grown sound _
            have inside :
                objects.reach sha ⊆ (noting.odb : Set Sha) := by
              rw [← whole]
              exact
                Finset.coe_subset.2
                  (Finset.subset_union_right.trans grown.odb)
            refine ⟨sound.insert inside, ?_⟩
            intro later grown _
            exact grown.fetchedRefs List.mem_cons_self
      · rw [same]
        refine ⟨sound.same rfl rfl rfl, ?_⟩
        cases outcome :
            (around.unbundleAt installing.moment installing.odb
              (.file bytes)).1 with
        | error error => exact fun _ _ _ => trivial
        | ok done => exact absurd outcome failed

/-- All cuts of a name have been collected. -/
def Collected
    (objects : Objects)
    (depth : Option Depth)
    (sha : Sha)
    (session : Session) : Prop :=
  ∀ limit, depth = some limit →
    ∀ oid, CutOff objects limit sha oid → oid ∈ session.boundaries

theorem safe_collectBoundaries
    {sha : Sha}
    (asked : Asked cmds sha)
    (session : Session) :
    Safe (sharing objects depth cmds) (serve objects around)
      (whenOk fun _ later => Collected objects depth sha later)
      (collectBoundaries depth sha) session := by
  unfold collectBoundaries
  cases deep : depth with
  | none => exact fun _ _ _ limit same => nomatch same
  | some limit =>
      intro looking _ sound _
      refine ⟨sound.next, ?_⟩
      simp only [serve]
      cases around.opened looking.moment with
      | error error => exact fun _ _ _ => trivial
      | ok done =>
          cases found :
              shallowBoundaries objects looking.odb sha limit.value with
          | error error => exact fun _ _ _ => trivial
          | ok ids =>
              intro collecting _ sound _
              have cut (oid : Sha) := mem_shallowBoundaries_iff found oid
              refine
                ⟨sound.extend asked rfl fun oid member =>
                    (cut oid).1 member,
                  ?_⟩
              intro later grown _ other same oid cutOff
              cases same
              apply grown.boundaries
              exact List.mem_append_right _ ((cut oid).2 cutOff)

include supplied in
theorem safe_fetchOne
    {sha : Sha}
    (asked : Asked cmds sha)
    (refName : RefName)
    (session : Session) :
    Safe (sharing objects depth cmds) (serve objects around)
      (whenOk fun _ later =>
        sha ∈ later.fetchedRefs ∧ Collected objects depth sha later)
      (fetchOne bucketPrefix depth sha refName) session := by
  intro looking _ sound _
  refine ⟨sound.next, ?_⟩
  have fetched :
      Safe (sharing objects depth cmds) (serve objects around)
        (whenOk fun _ later => sha ∈ later.fetchedRefs)
        (if sha ∈ looking.fetchedRefs then .done ()
          else installBundle bucketPrefix sha refName)
        looking.next := by
    split
    next known =>
        intro later grown _
        exact grown.fetchedRefs known
    next => exact safe_installBundle supplied sha refName _
  simp only [serve, decide_eq_true_eq]
  apply fetched.andThen
  intro _ noted _ known
  have collecting :
      Safe (sharing objects depth cmds) (serve objects around)
        (whenOk fun _ later =>
          Collected objects depth sha later ∧ sha ∈ later.fetchedRefs)
        (collectBoundaries depth sha) noted := by
    apply (safe_collectBoundaries asked noted).frame
    · exact fun _ _ grown member => grown.fetchedRefs member
    · exact fun _ _ grown member => grown.fetchedRefs member
    · exact known
  apply collecting.weaken
  intro outcome _ _ held
  cases outcome with
  | error error => trivial
  | ok done => exact ⟨held.2, held.1⟩

/-- What a task that has ended well leaves. -/
def Finished
    (objects : Objects)
    (depth : Option Depth)
    (cmd : Text)
    (session : Session) : Prop :=
  ∃ sha refName,
    parseFetchArgs cmd = .ok (sha, refName) ∧
      sha ∈ session.fetchedRefs ∧ Collected objects depth sha session

include supplied in
theorem safe_fetchTask
    (cmd : { cmd // cmd ∈ cmds })
    (session : Session) :
    Safe (sharing objects depth cmds) (serve objects around)
      (whenOk fun _ later => Finished objects depth cmd.1 later)
      (fetchTask bucketPrefix depth cmd.1) session := by
  unfold fetchTask
  cases parsed : parseFetchArgs cmd.1 with
  | error error => exact fun _ _ _ => trivial
  | ok found =>
      rcases found with ⟨sha, refName⟩
      have asked : Asked cmds sha := ⟨cmd.1, cmd.2, refName, parsed⟩
      apply (safe_fetchOne supplied asked refName session).weaken
      intro outcome _ _ ended
      cases outcome with
      | error error => trivial
      | ok done => exact ⟨sha, refName, parsed, ended⟩

theorem Finished.later
    {cmd : Text}
    {session later : Session}
    (finished : Finished objects depth cmd session)
    (grown : Grows session later) :
    Finished objects depth cmd later := by
  rcases finished with ⟨sha, refName, parsed, known, collected⟩
  exact
    ⟨sha, refName, parsed, grown.fetchedRefs known,
      fun limit deep oid cut =>
        grown.boundaries (collected limit deep oid cut)⟩

include supplied in
/-- The tasks of a batch keep to their terms. -/
theorem keeps_sharing :
    (tasks objects around bucketPrefix depth cmds).Keeps
      (sharing objects depth cmds)
      (fun cmd _ session => Finished objects depth cmd.1 session) where
  fair := fun _ _ grown => grown
  met := fun _ _ => trivial
  stable := fun _ _ _ _ grown finished => finished.later grown
  begin := fun _ session sound => ⟨sound, Grows.refl session⟩
  elapse := fun _ _ sound => sound.same rfl rfl rfl
  prepare := by
    intro _ cmd session
    apply (safe_fetchTask supplied cmd session).andThen
    intro _ _ _ finished later grown _ _ _
    exact finished.later grown
  work := fun _ _ _ session sound _ => ⟨sound, Grows.refl session⟩

/-! ## A batch -/

/-- A task works on its own command. -/
def Own
    (tasks : Tasks cmds) : Prop :=
  ∀ task,
    tasks.phase task = .idle ∨
      ∃ cmd program,
        tasks.phase task = .preparing cmd program ∧
          cmds[task]? = some cmd.1

theorem own_of_reached
    {session : Session}
    {pool : Tasks cmds}
    (reached :
      (tasks objects around bucketPrefix depth cmds).Reaches Spawned
        (.quiet session) pool) :
    Own pool := by
  induction reached with
  | refl => exact fun _ => Or.inl rfl
  | @step pool next action before allowed stepped hypothesis =>
      have moved
          {mover : Nat}
          {cmd : { cmd // cmd ∈ cmds }}
          (state : Session)
          (holder : Option Nat)
          (program : Prog FetchCall FetchReply FetchError (Option Unit))
          (own : cmds[mover]? = some cmd.1) :
          Own (pool.move mover state holder (.preparing cmd program)) := by
        intro task
        by_cases same : task = mover
        · subst same
          exact Or.inr ⟨cmd, program, by simp [Pool.move], own⟩
        · simpa [Pool.move, same] using hypothesis task
      cases stepped with
      | start idle => exact moved _ _ _ allowed
      | @prepareCall task cmd request rest preparing =>
          apply moved
          rcases hypothesis task with idle | ⟨own, program, phase, found⟩
          · rw [preparing] at idle
            cases idle
          · rw [preparing] at phase
            cases phase
            exact found
      | @workCall task cmd request rest holding =>
          rcases hypothesis task with idle | ⟨own, program, phase, found⟩
          · rw [holding] at idle
            cases idle
          · rw [holding] at phase
            cases phase
      | elapse => exact hypothesis
      | _ => exact allowed.elim

/-- What a batch leaves, by its result. -/
structure BatchDone
    (objects : Objects)
    (depth : Option Depth)
    (cmds : List Text)
    (before after : Session)
    (file : Option (List UInt8))
    (result : Except FetchError Unit)
    (written : Option (List UInt8)) : Prop where
  closed : Closed objects.links (after.odb : Set Sha)
  grown : before.odb ⊆ after.odb
  fetched :
    ∀ sha ∈ after.fetchedRefs, objects.reach sha ⊆ (after.odb : Set Sha)
  complete :
    result = .ok () →
      ∀ cmd ∈ cmds, ∃ sha refName,
        parseFetchArgs cmd = .ok (sha, refName) ∧
          sha ∈ after.fetchedRefs
  cut :
    result = .ok () → cmds ≠ [] →
      ∀ limit, depth = some limit →
        ∀ oid,
          oid ∈ shallowEntries (written.getD []) ↔
            (∃ sha, Asked cmds sha ∧ CutOff objects limit sha oid) ∨
              oid ∈ shallowEntries (file.getD []) ∧
                Remains objects after.odb oid
  failed : result ≠ .ok () → written = file

omit [Platform] in
theorem whole_of_spawned
    {pool : Tasks cmds}
    {action : Action Nat { cmd // cmd ∈ cmds }}
    (spawned : Spawned pool action) :
    action.Whole := by
  cases action with
  | lock task => exact spawned
  | _ => trivial

omit [Platform] in
/-- No error is kept only if there has been none. -/
theorem keepFirst_eq_none
    {first : Option FetchError}
    {results : List (Except FetchError Unit)}
    (unfailed : results.foldl keepFirst first = none) :
    first = none ∧ ∀ result ∈ results, result = .ok () := by
  induction results generalizing first with
  | nil =>
      refine ⟨unfailed, ?_⟩
      intro result member
      cases member
  | cons result rest hypothesis =>
      rcases hypothesis unfailed with ⟨before, later⟩
      cases result with
      | ok done =>
          refine ⟨before, ?_⟩
          intro other member
          rcases List.mem_cons.1 member with rfl | member
          · rfl
          · exact later other member
      | error error =>
          cases first with
          | none => cases before
          | some earlier => cases before

/-- Every task of a joined batch that has only good results ended well. -/
theorem finished_of_joined
    {pool : Tasks cmds}
    (own : Own pool)
    (carries :
      ∀ task,
        (pool.phase task).Carries
          (tasks objects around bucketPrefix depth cmds)
          (sharing objects depth cmds)
          (fun cmd _ session => Finished objects depth cmd.1 session)
          task pool.state)
    (sound : Sound objects depth cmds pool.state)
    {results : List (Except FetchError Unit)}
    (joined : Joined pool results)
    (good : ∀ result ∈ results, result = .ok ()) :
    ∀ cmd ∈ cmds, Finished objects depth cmd pool.state := by
  intro cmd member
  rcases joined with ⟨order, perm, outcomes⟩
  rcases List.getElem?_of_mem member with ⟨task, found⟩
  have inOrder : task ∈ order := by
    rw [perm.mem_iff, List.mem_range]
    exact (List.getElem?_eq_some_iff.1 found).1
  have ended :
      outcome? (pool.phase task) ∈ results.map some := by
    rw [← outcomes]
    exact List.mem_map_of_mem inOrder
  rcases List.mem_map.1 ended with ⟨result, listed, same⟩
  rw [good result listed] at same
  have carried := carries task
  rcases own task with idle | ⟨cmd', program, phase, mine⟩
  · rw [idle] at same
    cases same
  · rw [phase] at same carried
    rw [found] at mine
    cases mine
    cases program with
    | done value =>
        cases value with
        | none => cases same
        | some done =>
            exact
              carried pool.state (Grows.refl pool.state) sound () rfl
    | fail error => cases same
    | call request next => cases same

omit [Platform] in
/-- A rewrite of the shallow file that fails leaves it. -/
theorem writeShallowFile_failed
    {odb : Odb}
    {io : ShallowIo}
    {drained : List Sha}
    {file : Option (List UInt8)}
    {error : GitError}
    (failed :
      (writeShallowFile objects odb io drained file).1 = .error error) :
    (writeShallowFile objects odb io drained file).2 = file := by
  revert failed
  unfold writeShallowFile
  cases io.read with
  | error error => exact fun _ => rfl
  | ok done =>
      simp only
      split
      · exact fun _ => rfl
      · split
        · cases io.removed with
          | error error => exact fun _ => rfl
          | ok done => exact nofun
        · cases io.written with
          | error error => exact fun _ => rfl
          | ok done => exact nofun

omit [Platform] in
/-- What a successful rewrite leaves in the shallow file. -/
theorem mem_rewritten
    {odb : Odb}
    {io : ShallowIo}
    {drained : List Sha}
    {file : Option (List UInt8)}
    (done :
      (writeShallowFile objects odb io drained file).1 = .ok ())
    (oid : Sha) :
    oid ∈
        shallowEntries
          ((writeShallowFile objects odb io drained file).2.getD []) ↔
      oid ∈ drained ∨
        oid ∈ shallowEntries (file.getD []) ∧
          Remains objects odb oid := by
  rw [← mem_finalSet]
  have written :
      writeShallowFile objects odb io drained file =
        (.ok (), (writeShallowFile objects odb io drained file).2) :=
    Prod.ext done rfl
  rcases writeShallowFile_ok written with ⟨empty, same⟩ | ⟨-, same⟩
  · rw [same, empty]
    rfl
  · rw [same, Option.getD_some, shallowEntries_renderShallow,
      List.mem_mergeSort]

omit [Platform] in
/-- A batch succeeds only if none of its tasks has failed. -/
theorem unfailed_of_finishBatch
    {results : List (Except FetchError Unit)}
    {drained : List Sha}
    {odb : Odb}
    {io : ShallowIo}
    {file : Option (List UInt8)}
    (ended :
      (finishBatch objects depth io results drained odb file).1 =
        .ok ()) :
    firstErr results = none := by
  unfold finishBatch at ended
  cases first : firstErr results with
  | none => rfl
  | some error =>
      simp only [first] at ended
      cases ended

omit [Platform] in
/-- A batch with a depth whose tasks ended well rewrites the shallow file. -/
theorem finishBatch_deep
    {results : List (Except FetchError Unit)}
    (unfailed : firstErr results = none)
    (nonempty : results ≠ [])
    (limit : Depth)
    (io : ShallowIo)
    (drained : List Sha)
    (odb : Odb)
    (file : Option (List UInt8)) :
    finishBatch objects (some limit) io results drained odb file =
      ((writeShallowFile objects odb io drained file).1.mapError .git,
        (writeShallowFile objects odb io drained file).2) := by
  unfold finishBatch
  simp only [unfailed, nonempty, if_false]

include supplied in
/-- What a batch leaves if its buckets hold what they should. -/
theorem batch_done_of_supplied
    {before : Session}
    (closed : Closed objects.links (before.odb : Set Sha))
    (fetched :
      ∀ sha ∈ before.fetchedRefs,
        objects.reach sha ⊆ (before.odb : Set Sha))
    (fresh : before.boundaries = [])
    {pool : Tasks cmds}
    (reached :
      (tasks objects around bucketPrefix depth cmds).Reaches Spawned
        (.quiet before) pool)
    {results : List (Except FetchError Unit)}
    (joined : Joined pool results)
    {drained : List Sha}
    (drains : ∀ oid, oid ∈ drained ↔ oid ∈ pool.state.boundaries)
    (io : ShallowIo)
    (file : Option (List UInt8)) :
    BatchDone objects depth cmds before pool.state file
      (finishBatch objects depth io results drained pool.state.odb file).1
      (finishBatch objects depth io results drained pool.state.odb
        file).2 := by
  have initial : Sound objects depth cmds before := by
    refine ⟨closed, fetched, ?_⟩
    rw [fresh]
    exact fun _ member => nomatch member
  have whole {pool : Tasks cmds} {action} :=
    @whole_of_spawned cmds pool action
  have kept :=
    reached.kept (keeps_sharing supplied) (fun _ _ => whole) initial
  have grown :=
    reached.relied (keeps_sharing supplied) (fun _ _ => whole) initial
  have sound := kept.holds
  have finished :=
    finished_of_joined (own_of_reached reached) kept.clients sound joined
  have length : results.length = cmds.length := by
    rcases joined with ⟨order, perm, outcomes⟩
    have counted := congrArg List.length outcomes
    rw [List.length_map, List.length_map, perm.length_eq,
      List.length_range] at counted
    exact counted.symm
  refine ⟨sound.closed, grown.odb, sound.fetched, ?_, ?_, ?_⟩
  · intro ended cmd member
    have good := (keepFirst_eq_none (unfailed_of_finishBatch ended)).2
    rcases finished good cmd member with
      ⟨sha, refName, parsed, known, -⟩
    exact ⟨sha, refName, parsed, known⟩
  · intro ended nonempty limit deep oid
    have joinedSome : results ≠ [] := by
      intro empty
      rw [empty] at length
      exact nonempty (List.length_eq_zero_iff.1 length.symm)
    have unfailed := unfailed_of_finishBatch ended
    rw [deep, finishBatch_deep unfailed joinedSome] at ended ⊢
    have done :
        (writeShallowFile objects pool.state.odb io drained file).1 =
          .ok () := by
      cases written :
          (writeShallowFile objects pool.state.odb io drained
            file).1 with
      | ok done => rfl
      | error error =>
          simp only [written] at ended
          cases ended
    rw [mem_rewritten done, drains]
    refine or_congr ?_ Iff.rfl
    constructor
    · intro member
      rcases sound.cuts oid member with ⟨sha, other, asked, same, cut⟩
      rw [deep] at same
      cases same
      exact ⟨sha, asked, cut⟩
    · rintro ⟨sha, ⟨cmd, member, refName, parsed⟩, cut⟩
      rcases finished (keepFirst_eq_none unfailed).2 cmd member with
        ⟨_, _, parsed', -, collected⟩
      rw [parsed] at parsed'
      cases parsed'
      exact collected limit deep oid cut
  · unfold finishBatch
    split
    · exact fun _ => rfl
    · exact fun _ => rfl
    · split
      · exact fun _ => rfl
      · intro failed
        cases written :
            (writeShallowFile objects pool.state.odb io drained
              file).1 with
        | error error => exact writeShallowFile_failed written
        | ok done =>
            simp only [written] at failed
            exact absurd rfl failed

/--
However the tasks of a batch interleave, whatever honest clients and the
collector do to the bucket meanwhile and whatever fails, the repository stays
closed, and a batch that succeeds has everything it was asked for and cuts
the history off where it should.
-/
theorem batch_done
    {packer : Packer}
    (exact : packer.Exact objects contents)
    (unbundles : ∀ moment, Unbundles contents (around.unbundleAt moment))
    {ι : Type}
    [DecidableEq ι]
    {plan : FaultPlan Call ObjectStoreError}
    {clock : Int}
    (left :
      ∀ moment,
        ∃ pool :
            Pool ι Ownership.Command Call Reply Unit Empty (World × Nat),
          (Ownership.clients bucketPrefix plan ι).Reaches
            (fun pool action =>
              pool.Meets Ownership.Any action ∧
                StartsHonest packer objects contents action)
            (.quiet (.empty clock, 0)) pool ∧
            pool.state.1 = around.buckets moment)
    {before : Session}
    (closed : Closed objects.links (before.odb : Set Sha))
    (fetched :
      ∀ sha ∈ before.fetchedRefs,
        objects.reach sha ⊆ (before.odb : Set Sha))
    (fresh : before.boundaries = [])
    {pool : Tasks cmds}
    (reached :
      (tasks objects around bucketPrefix depth cmds).Reaches Spawned
        (.quiet before) pool)
    {results : List (Except FetchError Unit)}
    (joined : Joined pool results)
    {drained : List Sha}
    (drains : ∀ oid, oid ∈ drained ↔ oid ∈ pool.state.boundaries)
    (io : ShallowIo)
    (file : Option (List UInt8)) :
    BatchDone objects depth cmds before pool.state file
      (finishBatch objects depth io results drained pool.state.odb file).1
      (finishBatch objects depth io results drained pool.state.odb
        file).2 := by
  have stored :
      ∀ moment,
        Stored objects contents bucketPrefix (around.buckets moment) := by
    intro moment
    rcases left moment with ⟨others, reached, same⟩
    rw [← same]
    exact stored_of_reached exact reached
  exact
    batch_done_of_supplied ⟨stored, unbundles⟩ closed fetched fresh reached
      joined drains io file

end Sessions

/-! ## Two tasks for one tag -/

section Schedules

attribute [local instance] Platform.simple

/-- A push of the tag of the second commit under the bundle engine. -/
def tagPushed :
    List (CallProgram.Action Nat Ownership.Command) :=
  .start 0 (.bundlePush smallRepo false ⟨false, ['d'], .main⟩ 60 0) ::
    Action.calls 0 8

theorem startsHonest_tagPushed :
    ∀ action ∈ tagPushed,
      StartsHonest smallPacker smallObjects .digits action := by
  intro action listed
  cases action with
  | start client command =>
      have pushes :
          client = 0 ∧
            command =
              .bundlePush smallRepo false ⟨false, ['d'], .main⟩ 60 0 := by
        simpa [tagPushed, Action.calls] using listed
      rw [pushes.2]
      exact ⟨_, over_small⟩
  | _ => trivial

/-- Taking whatever a file has in it. -/
def takeAll (odb : Odb) : Body → Except GitError Unit × Odb
  | .file bytes =>
      match Contents.digits.bundleObjects bytes with
      | some found => (.ok (), odb ∪ found)
      | none => (.error .bundle, odb)
  | _ => (.error .bundle, odb)

theorem unbundles_takeAll : Unbundles .digits takeAll := by
  intro odb bytes found reads
  left
  simp only [takeAll, reads]

/-- A bucket that stays as it is, and calls that succeed. -/
def calm (world : World) : Surroundings where
  buckets := fun _ => world
  faults := fun _ => none
  unbundleAt := fun _ => takeAll
  opened := fun _ => .ok ()

/-- The command that asks for the tag. -/
def tagCmd : Text :=
  List.replicate 40 'd' ++ ' ' :: lit "refs/heads/main"

/-- Both commits next to a tip. -/
def two : Depth :=
  ⟨2, by decide, by decide⟩

/-- Two tasks for the tag, both of which find it not fetched yet. -/
def sideBySide :
    List (CallProgram.Action Nat { cmd // cmd ∈ [tagCmd, tagCmd] }) :=
  let cmd := ⟨tagCmd, List.mem_cons_self⟩
  [.start 0 cmd, .start 1 cmd, .call 0, .call 1] ++ Action.calls 1 5 ++
    Action.calls 0 5

theorem batch_done_sideBySide :
    ∃ pool batch,
      (Ownership.clients none (fun _ _ => none) Nat).schedule?
          (fun pool => pool.Meets Ownership.Any) tagPushed
          (.quiet (.empty 0, 0)) = some pool ∧
        (tasks smallObjects (calm pool.state.1) none (some two)
            [tagCmd, tagCmd]).schedule? Spawned sideBySide
          (.quiet ⟨0, ∅, [], []⟩) = some batch ∧
        BatchDone smallObjects (some two) [tagCmd, tagCmd] ⟨0, ∅, [], []⟩
          batch.state none
          (finishBatch smallObjects (some two) .fine [.ok (), .ok ()]
            batch.state.boundaries batch.state.odb none).1
          (finishBatch smallObjects (some two) .fine [.ok (), .ok ()]
            batch.state.boundaries batch.state.odb none).2 := by
  have executed :
      ((Ownership.clients none (fun _ _ => none) Nat).schedule?
          (fun pool => pool.Meets Ownership.Any) tagPushed
          (.quiet (.empty 0, 0))).bind
        (fun pool =>
          ((tasks smallObjects (calm pool.state.1) none (some two)
              [tagCmd, tagCmd]).schedule? Spawned sideBySide
            (.quiet ⟨0, ∅, [], []⟩)).map fun batch =>
              (outcome? (batch.phase 0), outcome? (batch.phase 1))) =
        some (some (.ok ()), some (.ok ())) := by
    decide +kernel
  rcases Option.bind_eq_some_iff.1 executed with ⟨pool, pushed, joined⟩
  rcases Option.map_eq_some_iff.1 joined with ⟨batch, fetched, ended⟩
  simp only [Prod.mk.injEq] at ended
  refine ⟨pool, batch, pushed, fetched, ?_⟩
  have reached :
      (tasks smallObjects (calm pool.state.1) none (some two)
          [tagCmd, tagCmd]).Reaches Spawned (.quiet ⟨0, ∅, [], []⟩) batch :=
    System.Reaches.refl.schedule fetched
  exact
    batch_done (exact_checked smallObjects smallBound)
      (fun _ => unbundles_takeAll)
      (fun _ =>
        ⟨pool,
          System.Reaches.refl.scheduled startsHonest_tagPushed pushed,
          show pool.state.1 = (calm pool.state.1).buckets 0 from rfl⟩)
      (by
        intro sha inside
        rw [Finset.coe_empty] at inside
        cases inside)
      (by
        intro sha member
        cases member)
      rfl reached ⟨[0, 1], .refl _, by simp [ended]⟩ (fun _ => Iff.rfl)
      .fine none

end Schedules

end GitRemoteObjectStore.FetchBatches
