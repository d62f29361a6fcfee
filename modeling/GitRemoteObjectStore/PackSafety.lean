import GitRemoteObjectStore.Interference
import GitRemoteObjectStore.PackchainRuns

/-!
# Packs under garbage collection

Pushes to any references, mark phases and sweeps are interleaved at single
store calls, locks included.  A sweep deletes a tombstoned pack after it has
listed the chains again.  Between that listing and the deletion a chain can
be committed that names the pack, and a push that uploaded the pack earlier
can commit after the deletion; the source accepts this window.  Unless a
schedule uses it, every chain names only packs that are there.
-/

namespace GitRemoteObjectStore.PackSafety

open CallProgram Prog Packchain
open Arrivals (Completion)

section Clients

variable
    [Platform]
    (bucketPrefix : Option Text)

/-- The commands that touch packs. -/
inductive Command where
  | push (repo : LocalRepo) (spec : PushSpec) (ttl now : Int)
  | mark (completion : Completion) (dryRun : Bool)
  | sweep (scans : Scans) (opts : SweepOpts)

/-- The whole run of a command, locking included. -/
def program : Command → Program Unit Unit
  | .push repo spec ttl now =>
      toEffect (pushOne bucketPrefix repo ttl now spec)
  | .mark completion dryRun =>
      toEffect (mark completion (prefixText bucketPrefix) dryRun)
  | .sweep scans opts =>
      toEffect (sweep scans (prefixText bucketPrefix) opts)

/-- Clients running commands on one repository. -/
def clients (ι : Type) [DecidableEq ι] :
    System ι Command Call Reply Unit Empty (Watched ι) where
  handler := Watched.watch
  begin := Watched.begin
  elapse := Watched.elapse
  prepare := fun command =>
    program bucketPrefix command >>= fun _ => .done none
  work := Empty.elim

variable {ι : Type}

/-- The packs a call makes a chain name. -/
def committedPacks : Call → List Sha40
  | .put _ (.chain manifest) => manifest.packShas
  | _ => []

/-- The key a call deletes. -/
def deletedKey : Call → Option Text
  | .delete key => some key
  | _ => none

/--
A push does not commit a manifest naming a pack deleted since the push began,
and a sweep does not delete a pack that a manifest committed since the sweep
last listed the chains names.
-/
def OutsideWindow
    (client : ι)
    (command : Command)
    (request : Call)
    (state : Watched ι) : Prop :=
  match command with
  | .push _ _ _ _ =>
      ∀ sha ∈ committedPacks request,
        packKey bucketPrefix sha ∉ state.lost client ∧
          packIdxKey bucketPrefix sha ∉ state.lost client
  | .mark .. => True
  | .sweep .. =>
      ∀ key ∈ deletedKey request, ∀ sha ∈ state.fresh client,
        key ≠ packKey bucketPrefix sha ∧
          key ≠ packIdxKey bucketPrefix sha

instance
    (client : ι)
    (command : Command)
    (request : Call)
    (state : Watched ι) :
    Decidable (OutsideWindow bucketPrefix client command request state) :=
  match command with
  | .push _ _ _ _ =>
      inferInstanceAs (Decidable (∀ _ ∈ committedPacks request, _ ∧ _))
  | .mark .. => .isTrue trivial
  | .sweep .. =>
      inferInstanceAs
        (Decidable
          (∀ _ ∈ deletedKey request, ∀ _ ∈ state.fresh client, _ ∧ _))

/-- The chains under `refs/` name only packs that are there. -/
def PacksIntact (world : World) : Prop :=
  ∀ refName : RefName,
    refName.UnderRefs →
    ∀ manifest,
      world.body? (chainKey bucketPrefix refName) =
          some (.chain manifest) →
        ∀ segment ∈ manifest.segments,
          PackStored bucketPrefix world segment.pack

/-! ## What the clients do to each other -/

/-- What a client sees of the others' calls. -/
structure Sees (client : ι) (state later : Watched ι) : Prop where
  kept : ∀ key, state.Kept client key → later.Kept client key
  fresh : ∀ sha ∈ state.fresh client, sha ∈ later.fresh client
  chains :
    ∀ refName manifest,
      later.world.body? (chainKey bucketPrefix refName) =
          some (.chain manifest) →
        state.world.body? (chainKey bucketPrefix refName) =
            some (.chain manifest) ∨
          ∀ sha ∈ manifest.packShas, sha ∈ later.fresh client

variable {bucketPrefix}

theorem Sees.refl (client : ι) (state : Watched ι) :
    Sees bucketPrefix client state state :=
  ⟨fun _ kept => kept, fun _ fresh => fresh, fun _ _ => Or.inl⟩

theorem Sees.trans
    {client : ι}
    {first second third : Watched ι}
    (left : Sees bucketPrefix client first second)
    (right : Sees bucketPrefix client second third) :
    Sees bucketPrefix client first third := by
  constructor
  · exact fun key kept => right.kept key (left.kept key kept)
  · exact fun sha member => right.fresh sha (left.fresh sha member)
  · intro refName manifest found
    rcases right.chains refName manifest found with before | named
    · rcases left.chains refName manifest before with same | named
      · exact Or.inl same
      · exact Or.inr fun sha member => right.fresh sha (named sha member)
    · exact Or.inr named

omit [Platform] in
theorem mem_freshAfter
    {request : Call}
    {own : Bool}
    (notListing : own = true → ∀ start, request ≠ .list start)
    {fresh : List Sha40}
    {sha : Sha40}
    (member : sha ∈ fresh) :
    sha ∈ request.freshAfter own fresh := by
  cases request with
  | list start =>
      cases own with
      | false => exact member
      | true => exact absurd rfl (notListing rfl start)
  | put key body =>
      cases body with
      | chain manifest => exact List.mem_append_right _ member
      | _ => exact member
  | putIfAbsent key body =>
      cases body with
      | chain manifest => exact List.mem_append_right _ member
      | _ => exact member
  | _ => exact member

/-- A chain found after a call was there before, or its packs are new. -/
theorem chain_after_answer
    {request : Call}
    {world : World}
    {key : Text}
    {manifest : ChainManifest}
    (found :
      (answer request world).2.body? key = some (.chain manifest)) :
    world.body? key = some (.chain manifest) ∨
      ∀ own fresh, ∀ sha ∈ manifest.packShas,
        sha ∈ request.freshAfter own fresh := by
  by_cases touched : request.Writes key
  · cases request with
    | put target body =>
        cases touched
        simp only [answer, World.body?_put, if_true,
          Option.some.injEq] at found
        subst found
        exact Or.inr fun _ _ sha member => List.mem_append_left _ member
    | putIfAbsent target body =>
        cases touched
        simp only [answer] at found
        split at found
        · exact Or.inl found
        · simp only [World.body?_put, if_true,
            Option.some.injEq] at found
          subst found
          exact
            Or.inr fun _ _ sha member => List.mem_append_left _ member
    | delete target =>
        cases touched
        rw [body?_answer_delete] at found
        cases found
    | list start => exact touched.elim
    | get target => exact touched.elim
    | head target => exact touched.elim
    | nowUtc => exact touched.elim
    | newUuid => exact touched.elim
  · rw [body?_answer_of_not_writes touched] at found
    exact Or.inl found

variable [DecidableEq ι]

/-- What one call does, seen by another client, or by a client that does
not list. -/
theorem sees_watch
    {actor client : ι}
    {request : Call}
    (notListing : client = actor → ∀ start, request ≠ .list start)
    (state : Watched ι) :
    Sees bucketPrefix client state
      (Watched.watch actor request state).2 := by
  constructor
  · exact fun key kept => kept.watch actor request
  · intro sha member
    apply mem_freshAfter _ member
    intro own
    exact notListing (of_decide_eq_true own)
  · intro refName manifest found
    rcases chain_after_answer found with before | named
    · exact Or.inl before
    · exact Or.inr (named _ _)

variable (bucketPrefix ι)

/-- The contract of every command; nobody relies on the lock. -/
def packSafety : Discipline ι Command Call (Watched ι) where
  invariant := fun state => PacksIntact bucketPrefix state.world
  met := OutsideWindow bucketPrefix
  freeRely := Sees bucketPrefix
  heldRely := Sees bucketPrefix
  freeStep := fun client _ state later =>
    ∀ other, other ≠ client → Sees bucketPrefix other state later
  heldStep := fun client _ state later =>
    ∀ other, other ≠ client → Sees bucketPrefix other state later
  freeRely_refl := Sees.refl
  freeRely_trans := fun _ _ _ _ left right => left.trans right
  heldRely_refl := Sees.refl
  heldRely_trans := fun _ _ _ _ left right => left.trans right
  free_of_freeStep := fun _ other _ _ _ different step =>
    step other different
  held_of_freeStep := fun _ other _ _ _ different step =>
    step other different
  free_of_heldStep := fun _ other _ _ _ different step =>
    step other different

variable {bucketPrefix ι}

/-- Whatever a client calls, the others see it as they should. -/
theorem step_watch
    (client : ι)
    (request : Call)
    (state : Watched ι) :
    ∀ other, other ≠ client →
      Sees bucketPrefix other state
        (Watched.watch client request state).2 :=
  fun _ different => sees_watch (fun same => absurd same different) state

/-! ## Harmless calls -/

/-- Calls that write no chain and delete no pack. -/
def Harmless (bucketPrefix : Option Text) (request : Call) : Prop :=
  (∀ key manifest,
    request ≠ .put key (.chain manifest) ∧
      request ≠ .putIfAbsent key (.chain manifest)) ∧
  ∀ sha,
    request ≠ .delete (packKey bucketPrefix sha) ∧
      request ≠ .delete (packIdxKey bucketPrefix sha)

theorem harmless_reads (request : Call) (reads : request.Reads) :
    Harmless bucketPrefix request := by
  cases request with
  | put key body => exact reads.elim
  | putIfAbsent key body => exact reads.elim
  | delete key => exact reads.elim
  | _ => exact ⟨fun _ _ => by simp, fun _ => by simp⟩

theorem harmless_put
    {key : Text}
    {body : Body}
    (noChain : ∀ manifest, body ≠ .chain manifest) :
    Harmless bucketPrefix (.put key body) := by
  constructor
  · intro other manifest
    constructor
    · intro same
      cases same
      exact noChain manifest rfl
    · simp
  · simp

theorem harmless_putIfAbsent
    {key : Text}
    {body : Body}
    (noChain : ∀ manifest, body ≠ .chain manifest) :
    Harmless bucketPrefix (.putIfAbsent key body) := by
  constructor
  · intro other manifest
    constructor
    · simp
    · intro same
      cases same
      exact noChain manifest rfl
  · simp

omit [Platform] in
theorem harmless_delete
    {key : Text}
    (noPack : ¬ IsPackKey bucketPrefix key) :
    Harmless bucketPrefix (.delete key) := by
  constructor
  · simp
  · intro sha
    constructor
    · intro same
      cases same
      exact noPack ⟨sha, Or.inl rfl⟩
    · intro same
      cases same
      exact noPack ⟨sha, Or.inr rfl⟩

omit [DecidableEq ι] in
/-- A pack no deletion hits stays stored. -/
theorem packStored_answer
    {request : Call}
    {world : World}
    {pack : Text}
    (stored : PackStored bucketPrefix world pack)
    (spared :
      ∀ sha, pack = packKey none sha →
        request ≠ .delete (packKey bucketPrefix sha) ∧
          request ≠ .delete (packIdxKey bucketPrefix sha)) :
    PackStored bucketPrefix (answer request world).2 pack := by
  rcases stored with ⟨sha, name, present, presentIdx⟩
  have notDeleted := spared sha name
  exact
    ⟨sha, name, present_answer notDeleted.1 present,
      present_answer notDeleted.2 presentIdx⟩

theorem Harmless.packsIntact
    {request : Call}
    (harmless : Harmless bucketPrefix request)
    {client : ι}
    {state : Watched ι}
    (intact : PacksIntact bucketPrefix state.world) :
    PacksIntact bucketPrefix
      (Watched.watch client request state).2.world := by
  intro refName under manifest found segment member
  have before :
      state.world.body? (chainKey bucketPrefix refName) =
        some (.chain manifest) := by
    by_cases touched :
        request.Writes (chainKey bucketPrefix refName)
    · cases request with
      | put target body =>
          cases touched
          simp only [Watched.watch_world, answer, World.body?_put,
            if_true, Option.some.injEq] at found
          subst found
          exact absurd rfl (harmless.1 _ manifest).1
      | putIfAbsent target body =>
          cases touched
          simp only [Watched.watch_world, answer] at found
          split at found
          · exact found
          · simp only [World.body?_put, if_true,
              Option.some.injEq] at found
            subst found
            exact absurd rfl (harmless.1 _ manifest).2
      | delete target =>
          cases touched
          rw [Watched.watch_world, body?_answer_delete] at found
          cases found
      | list start => exact touched.elim
      | get target => exact touched.elim
      | head target => exact touched.elim
      | nowUtc => exact touched.elim
      | newUuid => exact touched.elim
    · rw [Watched.watch_world,
        body?_answer_of_not_writes touched] at found
      exact found
  apply packStored_answer (intact refName under manifest before segment member)
  intro sha _
  exact harmless.2 sha

/-- A stretch of harmless calls keeps what every call keeps. -/
theorem safe_harmless
    {ε α : Type}
    {client : ι}
    {command : Command}
    (keeps : Watched ι → Prop)
    (stable :
      ∀ state later,
        (∀ key, state.Kept client key → later.Kept client key) →
        keeps state → keeps later)
    {program : Program ε α}
    (issues : Issues Call.Credible (Harmless bucketPrefix) program)
    {state : Watched ι}
    (holds : keeps state) :
    Safe ((packSafety bucketPrefix ι).free client command)
      (Watched.watch client) (fun _ later => keeps later) program
      state := by
  apply issues.safe (Watched.credible_watch client) _ _ holds
  · intro request state harmless intact _ holds
    constructor
    · exact
        ⟨harmless.packsIntact intact, step_watch client request state⟩
    · exact stable _ _ (fun _ kept => kept.watch client request) holds
  · intro state later changed holds
    exact stable _ _ changed.kept holds

/-- A program of harmless calls. -/
theorem safe_issues
    {ε α : Type}
    {client : ι}
    {command : Command}
    {program : Program ε α}
    (issues : Issues Call.Credible (Harmless bucketPrefix) program)
    {state : Watched ι} :
    Safe ((packSafety bucketPrefix ι).free client command)
      (Watched.watch client) (fun _ _ => True) program state :=
  safe_harmless (fun _ => True) (fun _ _ _ _ => trivial) issues trivial

/-! ## Pushes -/

/-- The packs a manifest under `refs/` is going to name. -/
def Backed
    (bucketPrefix : Option Text)
    (client : ι)
    (refName : RefName)
    (manifest : ChainManifest)
    (state : Watched ι) : Prop :=
  refName.UnderRefs →
    ∀ segment ∈ manifest.segments,
      ∃ sha,
        segment.pack = packKey none sha ∧
          state.Kept client (packKey bucketPrefix sha) ∧
          state.Kept client (packIdxKey bucketPrefix sha)

omit [DecidableEq ι] in
theorem Backed.later
    {client : ι}
    {refName : RefName}
    {manifest : ChainManifest}
    {state later : Watched ι}
    (kept : ∀ key, state.Kept client key → later.Kept client key)
    (backed : Backed bucketPrefix client refName manifest state) :
    Backed bucketPrefix client refName manifest later := by
  intro under segment member
  rcases backed under segment member with ⟨sha, name, pack, idx⟩
  exact ⟨sha, name, kept _ pack, kept _ idx⟩

omit [Platform] [DecidableEq ι] in
theorem mem_packShas
    {manifest : ChainManifest}
    {segment : ChainSegment}
    {sha : Sha40}
    (member : segment ∈ manifest.segments)
    (name : segment.pack = packKey none sha) :
    sha ∈ manifest.packShas := by
  apply List.mem_filterMap.2
  exact ⟨segment, member, by rw [name, shaFromPackKey_packKey]⟩

/-- A push that has read a chain can build on its packs. -/
theorem safe_readChain
    {client : ι}
    {command : Command}
    {state : Watched ι}
    (refName : RefName) :
    Safe ((packSafety bucketPrefix ι).free client command)
      (Watched.watch client)
      (whenOk fun prior later =>
        ∀ manifest, prior = some manifest →
          Backed bucketPrefix client refName manifest later)
      (loadChain bucketPrefix refName) state := by
  apply safe_loadChain
  · intro state other _
    exact .refl other state
  · intro found later _ intact _ changed _
    cases body :
        found.world.body? (chainKey bucketPrefix refName) with
    | none =>
        intro manifest same
        cases same
    | some stored =>
        simp only [loadedChain]
        cases parsed : ChainManifest.fromJsonBytes stored with
        | error error => trivial
        | ok manifest =>
            rcases ChainManifest.fromJsonBytes_ok.1 parsed with ⟨rfl, -⟩
            intro other same
            cases same
            intro under segment member
            rcases intact refName under manifest body segment member with
              ⟨sha, name, pack, idx⟩
            exact
              ⟨sha, name, changed.kept _ (Or.inl pack),
                changed.kept _ (Or.inl idx)⟩

/-- An upload keeps what every call keeps, and its key. -/
theorem safe_upload
    {client : ι}
    {command : Command}
    {key : Text}
    {content : List UInt8}
    (keeps : Watched ι → Prop)
    (stable :
      ∀ state later,
        (∀ key, state.Kept client key → later.Kept client key) →
        keeps state → keeps later)
    {state : Watched ι}
    (holds : keeps state) :
    Safe ((packSafety bucketPrefix ι).free client command)
      (Watched.watch client)
      (whenOk fun _ later => keeps later ∧ later.Kept client key)
      (Store.putPath key content) state := by
  have harmless :
      Harmless bucketPrefix (.put key (.file content)) :=
    harmless_put fun _ same => by cases same
  apply safe_putBytes
  · intro written _ intact _
    exact
      ⟨harmless.packsIntact intact, step_watch client _ written⟩
  · intro written later changed _ _ more
    constructor
    · apply stable _ _ more.kept
      apply stable _ _ fun _ kept => kept.watch client _
      exact stable _ _ changed.kept holds
    · exact more.kept _ (Or.inl (present_watch_put _ _ _ _))

theorem safe_uploadPackIdxBaseline
    {client : ι}
    {command : Command}
    (keeps : Watched ι → Prop)
    (stable :
      ∀ state later,
        (∀ key, state.Kept client key → later.Kept client key) →
        keeps state → keeps later)
    (refName : RefName)
    (localSha : Sha)
    (pack : BuiltPack)
    (baselineBundle : Option (List UInt8))
    {state : Watched ι}
    (holds : keeps state) :
    Safe ((packSafety bucketPrefix ι).free client command)
      (Watched.watch client)
      (whenOk fun _ later =>
        keeps later ∧
          later.Kept client (packKey bucketPrefix pack.contentSha) ∧
          later.Kept client (packIdxKey bucketPrefix pack.contentSha))
      (uploadPackIdxBaseline bucketPrefix refName localSha pack
        baselineBundle)
      state := by
  unfold uploadPackIdxBaseline
  apply (safe_upload keeps stable holds).convert.andThen
  intro _ afterPack _ uploaded
  have packKept :
      ∀ state later : Watched ι,
        (∀ key, state.Kept client key → later.Kept client key) →
        (keeps state ∧
          state.Kept client (packKey bucketPrefix pack.contentSha)) →
        keeps later ∧
          later.Kept client (packKey bucketPrefix pack.contentSha) :=
    fun _ _ kept both => ⟨stable _ _ kept both.1, kept _ both.2⟩
  apply (safe_upload _ packKept uploaded).convert.andThen
  intro _ afterIdx _ indexed
  have bothKept :
      ∀ state later : Watched ι,
        (∀ key, state.Kept client key → later.Kept client key) →
        (keeps state ∧
          state.Kept client (packKey bucketPrefix pack.contentSha) ∧
          state.Kept client
            (packIdxKey bucketPrefix pack.contentSha)) →
        keeps later ∧
          later.Kept client (packKey bucketPrefix pack.contentSha) ∧
          later.Kept client
            (packIdxKey bucketPrefix pack.contentSha) :=
    fun _ _ kept all =>
      ⟨stable _ _ kept all.1, kept _ all.2.1, kept _ all.2.2⟩
  have all := And.intro indexed.1.1 (And.intro indexed.1.2 indexed.2)
  cases baselineBundle with
  | none =>
      intro later changed _
      exact bothKept _ _ changed.kept all
  | some bundle =>
      apply ((safe_upload _ bothKept all).convert).weaken
      intro outcome later _ bundled
      cases outcome with
      | ok done => exact bundled.1
      | error error => trivial

omit [DecidableEq ι] in
/-- The manifest of a push names its pack and what the prior one names. -/
theorem backed_committedManifest
    {client : ι}
    {ready : ReadyState}
    {state : Watched ι}
    (pack :
      state.Kept client (packKey bucketPrefix ready.packContentSha))
    (idx :
      state.Kept client (packIdxKey bucketPrefix ready.packContentSha))
    (prior :
      ∀ manifest, ready.prior = some manifest →
        Backed bucketPrefix client ready.remoteRef manifest state) :
    Backed bucketPrefix client ready.remoteRef (committedManifest ready)
      state := by
  intro under segment member
  by_cases root : ready.force = true ∨ ready.prior = none
  · unfold committedManifest at member
    rw [nextManifest_root _ _ _ _ root] at member
    rw [List.mem_singleton.1 member]
    exact ⟨ready.packContentSha, rfl, pack, idx⟩
  · rw [not_or, Bool.not_eq_true] at root
    rcases Option.ne_none_iff_exists'.1 root.2 with ⟨manifest, found⟩
    unfold committedManifest at member
    rw [root.1, found] at member
    rcases List.mem_cons.1 member with rfl | inPrior
    · exact ⟨ready.packContentSha, rfl, pack, idx⟩
    · exact prior manifest found under segment inPrior

theorem safe_preparePush
    {client : ι}
    {command : Command}
    {state : Watched ι}
    (repo : LocalRepo)
    (spec : PushSpec) :
    Safe ((packSafety bucketPrefix ι).free client command)
      (Watched.watch client)
      (whenOk fun prepared later =>
        ∀ ready, prepared = .ready ready →
          Backed bucketPrefix client ready.remoteRef
            (committedManifest ready) later)
      (preparePush bucketPrefix repo spec) state := by
  unfold preparePush
  apply (safe_readChain spec.remoteRef).convert.andThen
  intro prior read _ based
  apply Safe.check
  intro probe _
  have stopped
      (outcome : PushOutcome)
      (state : Watched ι) :
      Safe ((packSafety bucketPrefix ι).free client command)
        (Watched.watch client)
        (whenOk fun prepared later =>
          ∀ ready, prepared = .ready ready →
            Backed bucketPrefix client ready.remoteRef
              (committedManifest ready) later)
        (.done (.done outcome) : Program PushError PrepareOutcome)
        state := by
    intro _ _ _ _ same
    cases same
  cases probe with
  | error refusal => exact stopped _ _
  | ok found =>
      simp only
      split
      · exact stopped _ _
      apply Safe.checkAs
      intro built _
      apply
        (safe_uploadPackIdxBaseline
          (fun later =>
            ∀ manifest, prior = some manifest →
              Backed bucketPrefix client spec.remoteRef manifest later)
          (fun _ _ kept based manifest same =>
            (based manifest same).later kept)
          spec.remoteRef found.localSha built.1 built.2 based).andThen
      intro _ uploaded _ parts
      rcases parts with ⟨based, pack, idx⟩
      intro later changed _ ready same
      cases same
      apply Backed.later changed.kept
      exact backed_committedManifest pack idx based

/-- Committing a manifest whose packs are not lost. -/
theorem safe_writeChain
    {client : ι}
    {repo : LocalRepo}
    {spec : PushSpec}
    {ttl now : Int}
    {refName : RefName}
    {manifest : ChainManifest}
    {state : Watched ι}
    (backed : Backed bucketPrefix client refName manifest state) :
    Safe
      ((packSafety bucketPrefix ι).free client
        (.push repo spec ttl now))
      (Watched.watch client) (whenOk fun _ _ => True)
      (writeChain bucketPrefix refName manifest) state := by
  apply Safe.convert
  refine safe_putBytes ?_ fun _ _ _ _ _ _ => trivial
  intro written changed intact met
  constructor
  · intro other under found present segment member
    have spared :
        ∀ sha, segment.pack = packKey none sha →
          Call.put (chainKey bucketPrefix refName) (.chain manifest) ≠
              .delete (packKey bucketPrefix sha) ∧
            Call.put (chainKey bucketPrefix refName)
                (.chain manifest) ≠
              .delete (packIdxKey bucketPrefix sha) :=
      fun _ _ => by simp
    by_cases same : other = refName
    · subst same
      simp only [Watched.watch_world, answer, World.body?_put, if_true,
        Option.some.injEq, Body.chain.injEq] at present
      subst present
      rcases (backed.later changed.kept) under segment member with
        ⟨sha, name, pack, idx⟩
      have notLost := met sha (mem_packShas member name)
      apply packStored_answer _ spared
      exact
        ⟨sha, name, pack.resolve_right notLost.1,
          idx.resolve_right notLost.2⟩
    · have untouched :
          ¬ Call.Writes
            (.put (chainKey bucketPrefix refName) (.chain manifest))
            (chainKey bucketPrefix other) := by
        simp [Call.Writes, same]
      rw [Watched.watch_world,
        body?_answer_of_not_writes untouched] at present
      exact
        packStored_answer (intact other under found present segment member)
          spared
  · exact step_watch client _ written

theorem harmless_tombstone (runId : Component) (record) :
    Harmless bucketPrefix
      (.put (baselineTombstoneKey (prefixText bucketPrefix) runId)
        (.baselineTombstone record)) :=
  harmless_put fun _ same => by cases same

theorem not_pack_of_ref
    {slot : Slot}
    (notPack : ∀ sha, slot ≠ .pack sha)
    (notIdx : ∀ sha, slot ≠ .idx sha) :
    ¬ IsPackKey bucketPrefix (slot.key bucketPrefix) := by
  rintro ⟨sha, same | same⟩
  · rw [packKey_eq, Slot.key_inj] at same
    exact notPack sha same
  · rw [packIdxKey_eq, Slot.key_inj] at same
    exact notIdx sha same

theorem harmless_dropPathIndex (refName : RefName) :
    Harmless bucketPrefix
      (.delete ((Slot.ref refName .pathIndex).key bucketPrefix)) :=
  harmless_delete (not_pack_of_ref (by simp) (by simp))

theorem safe_performPushUnderLock
    {client : ι}
    {pusher repo : LocalRepo}
    {spec : PushSpec}
    {ttl now : Int}
    {ready : ReadyState}
    {state : Watched ι}
    (backed :
      Backed bucketPrefix client ready.remoteRef (committedManifest ready)
        state) :
    Safe
      ((packSafety bucketPrefix ι).free client
        (.push pusher spec ttl now))
      (Watched.watch client) (whenOk fun _ _ => True)
      (performPushUnderLock bucketPrefix repo ready) state := by
  have stable :
      ∀ state later : Watched ι,
        (∀ key, state.Kept client key → later.Kept client key) →
        Backed bucketPrefix client ready.remoteRef
          (committedManifest ready) state →
        Backed bucketPrefix client ready.remoteRef
          (committedManifest ready) later :=
    fun _ _ kept backed => backed.later kept
  have creating
      (key : Text)
      (content : Text) :
      Issues Call.Credible (Harmless bucketPrefix)
        ((Store.putIfAbsent key (.text content)).mapError
          PushError.store) := by
    apply Issues.mapError
    apply issues_request
    · exact harmless_putIfAbsent fun _ same => by cases same
    · simp
  unfold performPushUnderLock
  apply
    (safe_harmless _ stable
      (issues_loadChain harmless_reads _ _).mapError backed).keeping
  intro current loaded _ backed
  apply
    (safe_harmless _ stable
      (issues_forceRefused harmless_reads _ repo ready current)
      backed).keeping
  intro refused checked _ backed
  split
  · exact safe_end
  split
  · exact safe_end
  apply Safe.checkAs
  intro pathIndex _
  unfold commitPush
  apply (safe_harmless _ stable (creating _ _) backed).keeping
  intro _ formatted _ backed
  apply (safe_harmless _ stable (creating _ _) backed).keeping
  intro _ headed _ backed
  apply (safe_writeChain backed).convert.andThen
  intro _ committed _ _
  apply
    (safe_issues
      (issues_writeOrDropPathIndex _ _ pathIndex
        (fun _ => harmless_put fun _ same => by cases same)
        (harmless_dropPathIndex _))).bind _ fun _ _ _ _ => trivial
  intro _ indexed _ _
  split
  · apply
      (safe_issues
        (issues_forcePushBaselineCleanup harmless_reads _ _ _ _
          harmless_tombstone)).bind _ fun _ _ _ _ => trivial
    intro _ _ _ _
    exact safe_end
  · exact safe_end

/-- A deletion sweeps its reference, where no packs are. -/
theorem issues_deleteUnderLock (refName : RefName) :
    Issues Call.Credible (Harmless bucketPrefix)
      (deleteUnderLock bucketPrefix refName) := by
  unfold deleteUnderLock
  apply Issues.bind
  · apply Issues.attempt
    apply issues_request (harmless_reads (.head _) trivial)
    simp
  intro outcome
  rcases outcome with error | found
  · cases error <;> trivial
  apply issues_list_bind (harmless_reads (.list _) trivial)
  intro entries under
  split
  · trivial
  apply Issues.bind
  · exact
      issues_tryWriteBaselineTombstone harmless_reads _ _ _
        harmless_tombstone
  intro deferred
  apply Issues.bind
  · apply Issues.mapError
    apply issues_forEach
    intro entry member
    split
    · trivial
    split
    · trivial
    apply issues_deleteIdempotent
    apply harmless_delete
    intro pack
    exact pack_not_under pack (under entry member)
  intro _
  apply Issues.bind
  · exact
      issues_verifyNoOrphanProtectedAfterDelete harmless_reads _ _
  intro _
  trivial

/-- Locking adds only harmless calls. -/
theorem safe_underRefLock
    {client : ι}
    {command : Command}
    {refName : RefName}
    {ttl now : Int}
    {who : String}
    {work : Program PushError PushOutcome}
    {state : Watched ι}
    (keeps : Watched ι → Prop)
    (stable :
      ∀ state later,
        (∀ key, state.Kept client key → later.Kept client key) →
        keeps state → keeps later)
    (holds : keeps state)
    (locked :
      ∀ state, keeps state →
        Safe ((packSafety bucketPrefix ι).free client command)
          (Watched.watch client) (whenOk fun _ _ => True) work state) :
    Safe ((packSafety bucketPrefix ι).free client command)
      (Watched.watch client) (whenOk fun _ _ => True)
      (underRefLock bucketPrefix refName ttl now who work) state := by
  have creating :
      Issues Call.Credible (Harmless bucketPrefix)
        (Store.putIfAbsent (lockKey bucketPrefix refName)
          (.text [])) := by
    apply issues_request
    · exact harmless_putIfAbsent fun _ same => by cases same
    · simp
  have dropping :
      Issues Call.Credible (Harmless bucketPrefix)
        (deleteIdempotent (lockKey bucketPrefix refName)) := by
    apply issues_deleteIdempotent
    apply harmless_delete
    rw [lockKey_eq]
    exact not_pack_of_ref (by simp) (by simp)
  have acquiring :
      Issues Call.Credible (Harmless bucketPrefix)
        (acquireLock (lockKey bucketPrefix refName) ttl now) := by
    apply creating.bind
    intro created
    split
    · trivial
    apply Issues.bind
    · apply Issues.attempt
      apply issues_request (harmless_reads (.head _) trivial)
      simp
    intro outcome
    rcases outcome with error | found
    · cases error <;> trivial
    simp only
    split
    · trivial
    · exact dropping.bind fun _ => creating
  unfold underRefLock
  have holding :
      Safe ((packSafety bucketPrefix ι).free client command)
        (Watched.watch client) (whenOk fun _ _ => True)
        (holdingLock (lockKey bucketPrefix refName) ttl now work)
        state := by
    apply (safe_harmless keeps stable acquiring holds).keeping
    intro acquired found _ holds
    split
    · apply (locked found holds).attempt.andThen
      intro result worked _ _
      apply (safe_issues (Issues.attempt dropping)).keeping
      intro released _ _ _
      exact safe_end
    · exact safe_end
  apply holding.convert.andThen
  intro outcome settled _ _
  cases outcome with
  | none => exact safe_end
  | some outcome =>
      apply safe_ofExcept
      intro later _ _
      cases settle refName (lockKey bucketPrefix refName) outcome.1
        outcome.2 <;> trivial

theorem safe_pushOne
    {client : ι}
    {pusher repo : LocalRepo}
    {spec : PushSpec}
    {ttl now : Int}
    {state : Watched ι} :
    Safe
      ((packSafety bucketPrefix ι).free client
        (.push pusher spec ttl now))
      (Watched.watch client) (whenOk fun _ _ => True)
      (pushOne bucketPrefix repo ttl now spec) state := by
  unfold pushOne
  split
  · apply safe_underRefLock (fun _ => True) (fun _ _ _ _ => trivial)
      trivial
    intro state _
    exact
      (safe_issues (issues_deleteUnderLock _)).weaken fun outcome _ _ _ =>
        by cases outcome <;> trivial
  · apply (safe_preparePush repo spec).andThen
    intro prepared found _ promised
    cases prepared with
    | done outcome => exact safe_end
    | ready ready =>
        apply
          safe_underRefLock
            (Backed bucketPrefix client ready.remoteRef
              (committedManifest ready))
            (fun _ _ kept backed => backed.later kept)
            (promised ready rfl)
        intro state backed
        exact safe_performPushUnderLock backed

/-! ## The listing of the referenced packs -/

/-- A chain names a pack only if it was committed since the listing. -/
def Unnamed
    (bucketPrefix : Option Text)
    (client : ι)
    (sha : Sha40)
    (state : Watched ι) : Prop :=
  ∀ refName : RefName,
    refName.UnderRefs →
    ∀ manifest,
      state.world.body? (chainKey bucketPrefix refName) =
          some (.chain manifest) →
        sha ∈ manifest.packShas → sha ∈ state.fresh client

omit [DecidableEq ι] in
theorem Unnamed.later
    {client : ι}
    {sha : Sha40}
    {state later : Watched ι}
    (unnamed : Unnamed bucketPrefix client sha state)
    (sees : Sees bucketPrefix client state later) :
    Unnamed bucketPrefix client sha later := by
  intro refName under manifest found member
  rcases sees.chains refName manifest found with before | new
  · exact sees.fresh _ (unnamed refName under manifest before member)
  · exact new sha member

/--
Every chain was read, was committed since the listing, or is still to be
read.
-/
def Scanned
    (bucketPrefix : Option Text)
    (client : ι)
    (shas : List Sha40)
    (remaining : List ObjectMeta)
    (state : Watched ι) : Prop :=
  ∀ refName : RefName,
    refName.UnderRefs →
    ∀ manifest,
      state.world.body? (chainKey bucketPrefix refName) =
          some (.chain manifest) →
        (∀ sha ∈ manifest.packShas, sha ∈ shas) ∨
          (∀ sha ∈ manifest.packShas, sha ∈ state.fresh client) ∨
          ∃ entry ∈ remaining,
            entry.key = chainKey bucketPrefix refName

omit [DecidableEq ι] in
theorem Scanned.later
    {client : ι}
    {shas : List Sha40}
    {remaining : List ObjectMeta}
    {state later : Watched ι}
    (scanned : Scanned bucketPrefix client shas remaining state)
    (sees : Sees bucketPrefix client state later) :
    Scanned bucketPrefix client shas remaining later := by
  intro refName under manifest found
  rcases sees.chains refName manifest found with before | new
  · rcases scanned refName under manifest before with
      read | fresh | pending
    · exact Or.inl read
    · exact
        Or.inr (Or.inl fun sha member => sees.fresh _ (fresh sha member))
    · exact Or.inr (Or.inr pending)
  · exact Or.inr (Or.inl new)

/-- Reading the next listed chain. -/
theorem safe_scanOne
    {client : ι}
    {command : Command}
    {shas : List Sha40}
    {entry : ObjectMeta}
    {remaining : List ObjectMeta}
    {state : Watched ι}
    (scanned :
      Scanned bucketPrefix client shas (entry :: remaining) state) :
    Safe ((packSafety bucketPrefix ι).free client command)
      (Watched.watch client)
      (whenOk fun next later =>
        Scanned bucketPrefix client next remaining later)
      (do
        let body ← (Store.getBytes entry.key).mapError PackchainError.store
        match ChainManifest.fromJsonBytes body with
        | .error error => .fail error
        | .ok chain => Prog.ofExcept (insertSegments shas chain.segments))
      state := by
  intro read changed intact _
  rw [Watched.watch_get]
  constructor
  · exact ⟨intact, fun other _ => .refl other read⟩
  have scanned := scanned.later changed
  simp only [Watched.watch_reply, answer]
  cases found : read.world.get? entry.key with
  | none =>
      intro _ _ _
      trivial
  | some object =>
      simp only [Prog.ofExcept, Prog.mapError, Prog.bind]
      cases parsed : ChainManifest.fromJsonBytes object.body with
      | error error =>
          intro _ _ _
          trivial
      | ok chain =>
          rcases ChainManifest.fromJsonBytes_ok.1 parsed with ⟨body, -⟩
          apply safe_ofExcept
          intro later more _
          cases inserted : insertSegments shas chain.segments with
          | error error => trivial
          | ok next =>
              have members (sha : Sha40) :=
                @mem_insertSegments_iff _ _ _ inserted sha
              apply Scanned.later _ more
              intro refName under manifest present
              rcases scanned refName under manifest present with
                known | fresh | ⟨pending, member, key⟩
              · exact
                  Or.inl fun sha member =>
                    (members sha).2 (Or.inl (known sha member))
              · exact Or.inr (Or.inl fresh)
              · rcases List.mem_cons.1 member with rfl | later
                · left
                  rw [← key] at present
                  unfold World.body? at present
                  rw [found, Option.map_some, body] at present
                  cases present
                  exact fun sha named => (members sha).2 (Or.inr named)
                · exact Or.inr (Or.inr ⟨pending, later, key⟩)

/-- A pack missing from the listing is named by newer chains only. -/
theorem safe_listReferencedPacks
    {client : ι}
    {command : Command}
    {state : Watched ι}
    (completion : Completion) :
    Safe ((packSafety bucketPrefix ι).free client command)
      (Watched.watch client)
      (whenOk fun shas later =>
        ∀ sha, sha ∉ shas → Unnamed bucketPrefix client sha later)
      (listReferencedPacks completion (prefixText bucketPrefix))
      state := by
  unfold listReferencedPacks
  rw [join_some_prefixText]
  have listing :
      Safe ((packSafety bucketPrefix ι).free client command)
        (Watched.watch client)
        (whenOk fun entries later =>
          Scanned bucketPrefix client []
            (completion.arrange
              (entries.filter fun entry => isChainJsonKey entry.key))
            later)
        (Store.list (join bucketPrefix (lit "refs/"))) state := by
    intro listed _ intact _
    have harmless :
        Harmless bucketPrefix
          (.list (join bucketPrefix (lit "refs/"))) :=
      harmless_reads _ trivial
    constructor
    · exact ⟨harmless.packsIntact intact, step_watch client _ listed⟩
    intro later changed _
    apply Scanned.later _ changed
    intro refName under manifest found
    right
    right
    have present :
        (listed.world.get?
          (chainKey bucketPrefix refName)).isSome := by
      rcases Option.map_eq_some_iff.1 found with ⟨object, stored, -⟩
      rw [Watched.watch_list_world] at stored
      rw [stored]
      rfl
    have begins :
        join bucketPrefix (lit "refs/") <+:
          chainKey bucketPrefix refName := by
      rw [chainKey_eq]
      exact refs_prefix_chain_iff.2 under
    rcases World.exists_mem_listing.2 ⟨begins, present⟩ with
      ⟨entry, member, key⟩
    refine
      ⟨entry, Completion.mem_arrange.2 (List.mem_filter.2 ⟨member, ?_⟩),
        key⟩
    rw [key, chainKey_eq, isChainJsonKey_chain]
  apply listing.convert.andThen
  intro entries listed _ scanned
  apply
    (safe_foldEach (Scanned bucketPrefix client)
      (fun _ _ _ _ sees scanned => scanned.later sees)
      (fun _ _ _ _ _ scanned => safe_scanOne scanned) scanned).weaken
  intro outcome later _ scanned
  cases outcome with
  | error error => trivial
  | ok shas =>
      intro sha absent refName under manifest found member
      rcases scanned refName under manifest found with
        known | fresh | ⟨_, pending, _⟩
      · exact absurd (known sha member) absent
      · exact fresh sha member
      · cases pending

/-! ## Mark and sweep -/

/-- Deleting a pack no chain names outside the window. -/
theorem safe_deletePack
    {client : ι}
    {scans : Scans}
    {opts : SweepOpts}
    {sha : Sha40}
    {key : Text}
    {state : Watched ι}
    (ofSha :
      key = packKey bucketPrefix sha ∨ key = packIdxKey bucketPrefix sha)
    (unnamed : Unnamed bucketPrefix client sha state) :
    Safe ((packSafety bucketPrefix ι).free client (.sweep scans opts))
      (Watched.watch client)
      (whenOk fun _ later => Unnamed bucketPrefix client sha later)
      (deleteCounted key) state := by
  intro deleted changed intact met
  have unnamed := unnamed.later changed
  have sees :
      Sees bucketPrefix client deleted
        (Watched.watch client (.delete key) deleted).2 :=
    sees_watch (fun _ _ => by simp) deleted
  constructor
  · constructor
    · intro refName under manifest found segment member
      have before :
          deleted.world.body? (chainKey bucketPrefix refName) =
            some (.chain manifest) := by
        have untouched :
            ¬ Call.Writes (.delete key)
              (chainKey bucketPrefix refName) := by
          rcases ofSha with rfl | rfl <;> simp [Call.Writes]
        rw [Watched.watch_world,
          body?_answer_of_not_writes untouched] at found
        exact found
      apply packStored_answer
        (intact refName under manifest before segment member)
      intro other name
      have different : other ≠ sha := by
        rintro rfl
        have fresh :=
          unnamed refName under manifest before (mem_packShas member name)
        rcases ofSha with same | same
        · exact (met key rfl other fresh).1 same
        · exact (met key rfl other fresh).2 same
      rcases ofSha with rfl | rfl <;> simp [different.symm]
    · exact step_watch client _ deleted
  · have after := unnamed.later sees
    have outcome :
        ∀ later, Sees bucketPrefix client
            (Watched.watch client (.delete key) deleted).2 later →
          Unnamed bucketPrefix client sha later :=
      fun later more => after.later more
    simp only [Watched.watch_reply, answer]
    cases deleted.world.get? key with
    | none => exact fun later more _ => outcome later more
    | some object => exact fun later more _ => outcome later more

/-- One tombstoned pack is deleted only while no chain names it. -/
theorem safe_sweepOnePack
    {client : ι}
    {scans : Scans}
    {opts : SweepOpts}
    {state : Watched ι}
    (scan : Sha40 → Completion)
    (counts : Nat × Nat)
    (sha : Sha40) :
    Safe ((packSafety bucketPrefix ι).free client (.sweep scans opts))
      (Watched.watch client) (whenOk fun _ _ => True)
      (sweepOnePack scan (prefixText bucketPrefix) counts sha) state := by
  unfold sweepOnePack
  apply (safe_listReferencedPacks (scan sha)).andThen
  intro referenced listed _ known
  split
  · exact safe_end
  next absent =>
      have unnamed : Unnamed bucketPrefix client sha listed :=
        known sha (by simpa using absent)
      have packName :
          packKey (some (prefixText bucketPrefix)) sha =
            packKey bucketPrefix sha := by
        simp [packKey_eq, Slot.key_some_prefixText]
      have idxName :
          packIdxKey (some (prefixText bucketPrefix)) sha =
            packIdxKey bucketPrefix sha := by
        simp [packIdxKey_eq, Slot.key_some_prefixText]
      apply (safe_deletePack (Or.inl packName) unnamed).andThen
      intro pack deleted _ unnamed
      apply (safe_deletePack (Or.inr idxName) unnamed).andThen
      intro idx _ _ _
      exact safe_end

omit [DecidableEq ι] in
/-- No tombstone is a pack. -/
theorem not_pack_of_gc
    {key : Text}
    {rest : Text}
    (inGc :
      join (some (prefixText bucketPrefix)) (lit "gc/" ++ rest) <+: key) :
    ¬ IsPackKey bucketPrefix key := by
  rw [join_some_prefixText, join_eq] at inGc
  rintro ⟨sha, rfl | rfl⟩
  · rw [packKey_eq, keyRoot_append_prefix_iff] at inGc
    simp [Slot.path, Slot.directory, lit_eq] at inGc
  · rw [packIdxKey_eq, keyRoot_append_prefix_iff] at inGc
    simp [Slot.path, Slot.directory, lit_eq] at inGc

theorem safe_sweepOneTombstone
    {client : ι}
    {scans : Scans}
    {opts : SweepOpts}
    {state : Watched ι}
    {key : Text}
    (scan : Sha40 → Completion)
    (noPack : ¬ IsPackKey bucketPrefix key) :
    Safe ((packSafety bucketPrefix ι).free client (.sweep scans opts))
      (Watched.watch client) (whenOk fun _ _ => True)
      (sweepOneTombstone scan (prefixText bucketPrefix) key opts)
      state := by
  unfold sweepOneTombstone
  apply (safe_issues (issues_getBytes harmless_reads key).attempt).keeping
  intro outcome found _ _
  rcases outcome with error | body
  · cases error <;> first | exact safe_end | exact safe_fail
  apply Safe.check
  intro tombstone _
  apply
    (safe_issues
      (issues_graceCheck harmless_reads opts tombstone.markedAt)).keeping
  intro decision decided _ _
  cases decision with
  | within => exact safe_end
  | past =>
      simp only
      apply
        (safe_foldEach (fun _ _ _ => True) (fun _ _ _ _ _ _ => trivial)
          (fun counts sha _ _ _ _ => safe_sweepOnePack scan counts sha)
          trivial).andThen
      intro counts swept _ _
      apply
        (safe_issues (issues_deleteCounted (harmless_delete noPack))).keeping
      intro _ _ _ _
      exact safe_end

/-- A baseline tombstone never leads to the deletion of a pack. -/
theorem harmless_delete_bundle (refName : RefName) (sha : Sha40) :
    Harmless bucketPrefix
      (.delete
        (bundleKey (prefixOpt (prefixText bucketPrefix)) refName sha)) := by
  apply harmless_delete
  have sameKey :
      bundleKey (prefixOpt (prefixText bucketPrefix)) refName sha =
        (Slot.ref refName (.bundle sha)).key bucketPrefix := by
    rw [bundleKey_eq]
    simp [Slot.key]
  rw [sameKey]
  exact not_pack_of_ref (by simp) (by simp)

theorem safe_sweepEntry
    {client : ι}
    {scans : Scans}
    {opts : SweepOpts}
    {state : Watched ι}
    (outcome : SweepOutcome)
    (entry : ObjectMeta) :
    Safe ((packSafety bucketPrefix ι).free client (.sweep scans opts))
      (Watched.watch client) (whenOk fun _ _ => True)
      (sweepEntry scans (prefixText bucketPrefix) opts outcome entry)
      state := by
  unfold sweepEntry
  split
  · exact safe_end
  split
  next marked =>
      have noPack : ¬ IsPackKey bucketPrefix entry.key := by
        rw [isTombstoneKey, List.isPrefixOf_iff_prefix] at marked
        have begins : lit "gc/tombstones-" = lit "gc/" ++ lit "tombstones-" := by
          decide +kernel
        rw [begins] at marked
        exact not_pack_of_gc marked
      apply
        (safe_sweepOneTombstone (scans entry.key) noPack).attempt.andThen
      intro step swept _ _
      exact safe_end
  split
  next marked =>
      have noPack : ¬ IsPackKey bucketPrefix entry.key := by
        rw [isBaselineTombstoneKey, List.isPrefixOf_iff_prefix,
          baselineTombstoneListingPrefix] at marked
        have begins :
            lit "gc/baseline-tomb-" = lit "gc/" ++ lit "baseline-tomb-" := by
          decide +kernel
        rw [begins] at marked
        exact not_pack_of_gc marked
      apply
        (safe_issues
          (issues_sweepOneBaselineTombstone harmless_reads
            harmless_delete_bundle (harmless_delete noPack)).attempt).keeping
      intro step swept _ _
      exact safe_end
  · exact safe_end

theorem safe_sweep
    {client : ι}
    {scans : Scans}
    {opts : SweepOpts}
    {state : Watched ι} :
    Safe ((packSafety bucketPrefix ι).free client (.sweep scans opts))
      (Watched.watch client) (whenOk fun _ _ => True)
      (sweep scans (prefixText bucketPrefix) opts) state := by
  unfold sweep
  have listing :
      Issues Call.Credible (Harmless bucketPrefix)
        ((Store.list (gcListingPrefix (prefixText bucketPrefix))).mapError
          PackchainError.store) := by
    apply Issues.mapError
    apply issues_request (harmless_reads (.list _) trivial)
    simp
  apply (safe_issues listing).keeping
  intro entries listed _ _
  exact
    safe_foldEach (fun _ _ _ => True) (fun _ _ _ _ _ _ => trivial)
      (fun outcome entry _ _ _ _ => safe_sweepEntry outcome entry) trivial

/-! ## Every schedule -/

/-- The commands keep to their contract. -/
theorem follows_packSafety :
    (clients bucketPrefix ι).Follows (packSafety bucketPrefix ι)
      (fun _ _ _ _ => True) where
  ready_stable := fun _ _ _ _ _ _ ready => ready
  begin := by
    intro client state intact
    constructor
    · exact intact
    · intro other different
      have sees :
          Sees bucketPrefix other state (Watched.begin client state) :=
        ⟨fun _ kept => kept.begin different.symm, fun _ fresh => fresh,
          fun _ _ => Or.inl⟩
      exact ⟨sees, sees⟩
  elapse := by
    intro duration state intact
    constructor
    · exact intact
    · intro client
      have sees :
          Sees bucketPrefix client state (state.elapse duration) :=
        ⟨fun _ kept => kept, fun _ fresh => fresh, fun _ _ => Or.inl⟩
      exact ⟨sees, sees⟩
  prepare := by
    intro client command state _
    have whole :
        Safe ((packSafety bucketPrefix ι).free client command)
          (Watched.watch client) (fun _ _ => True)
          (program bucketPrefix command)
          (Watched.begin client state) := by
      cases command with
      | push repo spec ttl now => exact safe_pushOne.toEffect
      | mark completion dryRun =>
          apply Safe.toEffect
          apply safe_issues
          apply issues_mark harmless_reads
          intro runId markedAt record
          exact harmless_put fun _ same => by cases same
      | sweep scans opts => exact safe_sweep.toEffect
    apply whole.keeping
    intro _ _ _ _ _ _ _ task _
    exact task.elim
  work := fun _ _ task => task.elim

/-- Outside the window no chain under `refs/` loses a pack. -/
theorem packsIntact_of_reaches
    {clock : Int}
    {pool : Pool ι Command Call Reply Unit Empty (Watched ι)}
    (reached :
      (clients bucketPrefix ι).Reaches
        (fun pool => pool.Meets (OutsideWindow bucketPrefix))
        (.quiet (.ofWorld (.empty clock))) pool) :
    PacksIntact bucketPrefix pool.state.world := by
  have start :
      (Pool.quiet (.ofWorld (.empty clock)) :
          Pool ι Command Call Reply Unit Empty (Watched ι)).Ok
        (clients bucketPrefix ι) (packSafety bucketPrefix ι)
        (fun _ _ _ _ => True) := by
    apply Pool.ok_quiet
    intro refName _ manifest found
    simp [Watched.ofWorld] at found
  exact
    (reached.ok follows_packSafety (fun _ _ allowed => allowed)
      start).invariant

end Clients

/-! ## Three schedules -/

section Schedules

attribute [local instance] Platform.simple

/-- The chain of the reference names a pack that is not there. -/
def lacksPack (world : World) : Bool :=
  match world.body? (chainKey none .main) with
  | some (.chain manifest) =>
      manifest.packShas.any fun sha =>
        (world.get? (packKey none sha)).isNone
  | _ => false

theorem not_packsIntact_of_lacksPack
    {world : World}
    (lacks : lacksPack world = true) :
    ¬ PacksIntact none world := by
  intro intact
  unfold lacksPack at lacks
  split at lacks
  next manifest found =>
      rcases List.any_eq_true.1 lacks with ⟨sha, member, absent⟩
      rcases List.mem_filterMap.1 member with ⟨segment, inChain, name⟩
      have under : RefName.main.UnderRefs :=
        ⟨lit "heads/main", by decide +kernel⟩
      rcases intact .main under manifest found segment inChain with
        ⟨other, pack, present, -⟩
      rw [pack, shaFromPackKey_packKey] at name
      cases name
      have gone := Option.isNone_iff_eq_none.1 absent
      rw [gone] at present
      cases present
  · cases lacks

/-- A push to the reference. -/
def pushMain (force : Bool) (localSpec : Text) : Command :=
  .push .linear ⟨force, localSpec, .main⟩ 0 0

/-- The pack of the first push is superseded, marked, and grows old. -/
def supersededPack : List (Action Nat Command) :=
  .start 0 (pushMain false ['a']) :: Action.calls 0 11 ++
    .settle 0 ::
    .start 0 (pushMain true ['b']) :: Action.calls 0 15 ++
    .settle 0 ::
    .start 1 (.mark .inOrder false) :: Action.calls 1 6 ++
    .settle 1 :: [.elapse 90000000000000]

/--
A sweep finds the pack unreferenced; the first commit is pushed again; the
sweep deletes the pack.
-/
def pushedAfterRecheck : List (Action Nat Command) :=
  supersededPack ++
    .start 1 (.sweep .inOrder ⟨24, false⟩) :: Action.calls 1 5 ++
    .start 0 (pushMain true ['a']) :: Action.calls 0 15 ++
    Action.calls 1 1

/-- In the window a chain can lose a pack. -/
theorem not_packsIntact_of_reaches :
    ¬ ∀ pool,
      (clients none Nat).Reaches
        (fun pool => pool.Meets fun _ _ _ _ => True)
        (.quiet (.ofWorld (.empty 0))) pool →
      PacksIntact none pool.state.world := by
  intro always
  have executed :
      ((clients none Nat).schedule?
          (fun pool => pool.Meets fun _ _ _ _ => True)
          pushedAfterRecheck (.quiet (.ofWorld (.empty 0)))).map
        (fun pool => lacksPack pool.state.world) = some true := by
    decide +kernel
  rcases Option.map_eq_some_iff.1 executed with ⟨pool, reached, lacks⟩
  exact
    not_packsIntact_of_lacksPack lacks
      (always pool (System.Reaches.refl.schedule reached))

/--
A sweep deletes no pack that a manifest committed since it last listed the
chains names; a push may commit what was deleted under it.
-/
def OutsideRecheck
    (client : Nat)
    (command : Command)
    (request : Call)
    (state : Watched Nat) : Prop :=
  match command with
  | .sweep .. => OutsideWindow none client command request state
  | _ => True

instance
    (client : Nat)
    (command : Command)
    (request : Call)
    (state : Watched Nat) :
    Decidable (OutsideRecheck client command request state) :=
  match command with
  | .push .. => .isTrue trivial
  | .mark .. => .isTrue trivial
  | .sweep scans opts =>
      inferInstanceAs
        (Decidable
          (OutsideWindow none client (.sweep scans opts) request state))

/--
The first commit is pushed again: its pack is uploaded and the lock is held.
A sweep that finds the pack unreferenced deletes it; then the push commits.
-/
def sweptBeforeCommit : List (Action Nat Command) :=
  supersededPack ++
    .start 0 (pushMain true ['a']) :: Action.calls 0 5 ++
    .start 1 (.sweep .inOrder ⟨24, false⟩) :: Action.calls 1 7 ++
    Action.calls 0 10

/-- The recheck before a deletion does not see a push that has to commit. -/
theorem not_packsIntact_of_uploaded :
    ¬ ∀ pool,
      (clients none Nat).Reaches
        (fun pool => pool.Meets OutsideRecheck)
        (.quiet (.ofWorld (.empty 0))) pool →
      PacksIntact none pool.state.world := by
  intro always
  have executed :
      ((clients none Nat).schedule?
          (fun pool => pool.Meets OutsideRecheck)
          sweptBeforeCommit (.quiet (.ofWorld (.empty 0)))).map
        (fun pool => lacksPack pool.state.world) = some true := by
    decide +kernel
  rcases Option.map_eq_some_iff.1 executed with ⟨pool, reached, lacks⟩
  exact
    not_packsIntact_of_lacksPack lacks
      (always pool (System.Reaches.refl.schedule reached))

/-- A sweep deletes the pack, and then the first commit is pushed again. -/
def pushedAfterSweep : List (Action Nat Command) :=
  supersededPack ++
    .start 1 (.sweep .inOrder ⟨24, false⟩) :: Action.calls 1 14 ++
    .settle 1 ::
    .start 0 (pushMain true ['a']) :: Action.calls 0 15

theorem packsIntact_of_reaches_swept :
    ∃ pool,
      (clients none Nat).schedule?
          (fun pool => pool.Meets (OutsideWindow none))
          pushedAfterSweep (.quiet (.ofWorld (.empty 0))) = some pool ∧
        (pool.state.world.body? (chainKey none .main)).isSome ∧
        PacksIntact none pool.state.world := by
  have executed :
      ((clients none Nat).schedule?
          (fun pool => pool.Meets (OutsideWindow none))
          pushedAfterSweep (.quiet (.ofWorld (.empty 0)))).map
        (fun pool =>
          (pool.state.world.body? (chainKey none .main)).isSome) =
        some true := by
    decide +kernel
  rcases Option.map_eq_some_iff.1 executed with ⟨pool, reached, present⟩
  exact
    ⟨pool, reached, present,
      packsIntact_of_reaches (System.Reaches.refl.schedule reached)⟩

end Schedules

end GitRemoteObjectStore.PackSafety
