import GitRemoteObjectStore.Git

/-!
# Chain manifests in the bucket

Reading and writing `chain.json` and `path-index.json`, and the manifest a
push makes of the one before it.
-/

namespace GitRemoteObjectStore

open CallProgram Prog

/-- The manifest of a push of `localTip` on top of `prior`. -/
def nextManifest
    (prior : Option ChainManifest)
    (localTip : Sha40)
    (segment : ChainSegment)
    (force : Bool) : ChainManifest :=
  match force, prior with
  | false, some prior =>
      { v := ChainManifest.schemaVersion
        tip := localTip
        fullAt := prior.fullAt
        segments :=
          { segment with parentSha := some prior.tip } :: prior.segments }
  | _, _ =>
      { v := ChainManifest.schemaVersion
        tip := localTip
        fullAt := localTip
        segments := [{ segment with parentSha := none }] }

section NextManifest

variable
    (prior : Option ChainManifest)
    (localTip : Sha40)
    (segment : ChainSegment)
    (force : Bool)

@[simp]
theorem nextManifest_v :
    (nextManifest prior localTip segment force).v =
      ChainManifest.schemaVersion := by
  cases force <;> cases prior <;> rfl

@[simp]
theorem nextManifest_tip :
    (nextManifest prior localTip segment force).tip = localTip := by
  cases force <;> cases prior <;> rfl

/-- A forced or first push starts a new chain. -/
theorem nextManifest_root (root : force = true ∨ prior = none) :
    nextManifest prior localTip segment force =
      { v := ChainManifest.schemaVersion
        tip := localTip
        fullAt := localTip
        segments := [{ segment with parentSha := none }] } := by
  rcases root with rfl | rfl
  · cases prior <;> rfl
  · cases force <;> rfl

/-- Only the chain's identity decides what an incremental push writes. -/
theorem nextManifest_incremental_injective
    {left right : ChainManifest}
    (leftVersion : left.v = ChainManifest.schemaVersion)
    (rightVersion : right.v = ChainManifest.schemaVersion)
    (equal :
      nextManifest (some left) localTip segment false =
        nextManifest (some right) localTip segment false) :
    left = right := by
  simp only [nextManifest, ChainManifest.mk.injEq, List.cons.injEq,
    ChainSegment.mk.injEq, Option.some.injEq, true_and, and_true] at equal
  cases left
  cases right
  simp_all

end NextManifest

/-! ## Reading and writing -/

variable [Platform]

/-- Read `chain.json`; a missing one is no chain. -/
def loadChain
    (bucketPrefix : Option Text)
    (remoteRef : RefName) :
    Program PackchainError (Option ChainManifest) := do
  match ← (Store.getBytes (chainKey bucketPrefix remoteRef)).attempt with
  | .ok body =>
      match ChainManifest.fromJsonBytes body with
      | .ok manifest => return some manifest
      | .error error => .fail error
  | .error (.notFound _) => return none
  | .error error => .fail (.store error)

/-- Read `path-index.json`; one of another version counts as missing. -/
def loadPathIndex
    (bucketPrefix : Option Text)
    (remoteRef : RefName) :
    Program PackchainError (Option PathIndex) := do
  match ←
    (Store.getBytes (pathIndexKey bucketPrefix remoteRef)).attempt with
  | .ok body =>
      match PathIndex.fromJsonBytes body with
      | .ok index => return some index
      | .error (.unsupportedSchemaVersion _ _) => return none
      | .error error => .fail error
  | .error (.notFound _) => return none
  | .error error => .fail (.store error)

/-- Write `chain.json`. -/
def writeChain
    (bucketPrefix : Option Text)
    (remoteRef : RefName)
    (manifest : ChainManifest) : Program PackchainError Unit :=
  (Store.putBytes (chainKey bucketPrefix remoteRef)
    (.chain manifest)).mapError .store

/-- Write `path-index.json`. -/
def writePathIndex
    (bucketPrefix : Option Text)
    (remoteRef : RefName)
    (index : PathIndex) : Program PackchainError Unit :=
  (Store.putBytes (pathIndexKey bucketPrefix remoteRef)
    (.pathIndex index)).mapError .store

/-! ## Runs -/

variable
    (bucketPrefix : Option Text)
    (remoteRef : RefName)
    (world : World)

/-- The chain stored for a reference, if its manifest parses. -/
def World.chain? : Option ChainManifest :=
  match world.body? (chainKey bucketPrefix remoteRef) with
  | none => none
  | some body => (ChainManifest.fromJsonBytes body).toOption

/-- What `loadChain` makes of the object it finds. -/
def loadedChain :
    Option Body → Except PackchainError (Option ChainManifest)
  | none => .ok none
  | some body => (ChainManifest.fromJsonBytes body).map some

omit [Platform] in
theorem loadedChain_version
    {found : Option Body}
    {chain : ChainManifest}
    (loaded : loadedChain found = .ok (some chain)) :
    chain.v = ChainManifest.schemaVersion := by
  cases found with
  | none => cases loaded
  | some body =>
      simp only [loadedChain] at loaded
      cases parsed : ChainManifest.fromJsonBytes body with
      | error error => simp [parsed, Except.map] at loaded
      | ok manifest =>
          simp only [parsed, Except.map, Except.ok.injEq,
            Option.some.injEq] at loaded
          rw [← loaded]
          exact (ChainManifest.fromJsonBytes_ok.1 parsed).2

theorem run_loadChain :
    run answer (loadChain bucketPrefix remoteRef) world =
      (loadedChain (world.body? (chainKey bucketPrefix remoteRef)),
        world) := by
  simp only [loadChain, Store.getBytes, attempt_call, call_bind, run_call,
    answer, World.body?]
  cases found : world.get? (chainKey bucketPrefix remoteRef) with
  | none => rfl
  | some object =>
      simp only [Option.map_some, loadedChain]
      cases parsed : ChainManifest.fromJsonBytes object.body with
      | ok manifest => simp [parsed, Except.map]
      | error error => simp [parsed, Except.map]

/-- A chain that was loaded is the one stored. -/
theorem loadedChain_eq_ok
    {current : Option ChainManifest}
    (loaded :
      loadedChain (world.body? (chainKey bucketPrefix remoteRef)) =
        .ok current) :
    world.chain? bucketPrefix remoteRef = current := by
  unfold World.chain?
  cases body : world.body? (chainKey bucketPrefix remoteRef) with
  | none =>
      rw [body] at loaded
      cases loaded
      rfl
  | some stored =>
      rw [body] at loaded
      simp only [loadedChain] at loaded
      cases parsed : ChainManifest.fromJsonBytes stored with
      | error error => simp [parsed, Except.map] at loaded
      | ok manifest =>
          simp only [parsed, Except.map, Except.ok.injEq] at loaded
          simp [parsed, Except.toOption, loaded]

theorem World.chain?_version
    {world : World}
    {chain : ChainManifest}
    (found : world.chain? bucketPrefix remoteRef = some chain) :
    chain.v = ChainManifest.schemaVersion := by
  unfold World.chain? at found
  cases body : world.body? (chainKey bucketPrefix remoteRef) with
  | none =>
      rw [body] at found
      cases found
  | some stored =>
      rw [body] at found
      cases parsed : ChainManifest.fromJsonBytes stored with
      | error error => simp [parsed, Except.toOption] at found
      | ok manifest =>
          simp only [parsed, Except.toOption, Option.some.injEq] at found
          rw [← found]
          exact (ChainManifest.fromJsonBytes_ok.1 parsed).2

theorem World.chain?_eq_some_iff
    {world : World}
    {chain : ChainManifest} :
    world.chain? bucketPrefix remoteRef = some chain ↔
      world.body? (chainKey bucketPrefix remoteRef) =
          some (.chain chain) ∧
        chain.v = ChainManifest.schemaVersion := by
  have parses :
      world.chain? bucketPrefix remoteRef = some chain ↔
        ∃ body,
          world.body? (chainKey bucketPrefix remoteRef) = some body ∧
            ChainManifest.fromJsonBytes body = .ok chain := by
    unfold World.chain?
    cases world.body? (chainKey bucketPrefix remoteRef) with
    | none => simp
    | some body =>
        cases parsed : ChainManifest.fromJsonBytes body <;>
          simp [parsed, Except.toOption]
  rw [parses]
  simp only [ChainManifest.fromJsonBytes_ok]
  constructor
  · rintro ⟨body, stored, rfl, version⟩
    exact ⟨stored, version⟩
  · rintro ⟨stored, version⟩
    exact ⟨_, stored, rfl, version⟩

/-- A chain that can be read is loaded. -/
theorem loadedChain_of_chain?
    {world : World}
    {chain : ChainManifest}
    (found : world.chain? bucketPrefix remoteRef = some chain) :
    loadedChain (world.body? (chainKey bucketPrefix remoteRef)) =
      .ok (some chain) := by
  have parts := (World.chain?_eq_some_iff _ _).1 found
  rw [parts.1]
  simp only [loadedChain,
    ChainManifest.fromJsonBytes_ok.2 ⟨rfl, parts.2⟩, Except.map]

/-- Loading a chain is one request. -/
theorem issued_loadChain :
    issued answer (loadChain bucketPrefix remoteRef) world =
      [.get (chainKey bucketPrefix remoteRef)] := by
  unfold loadChain
  simp only [Store.getBytes, attempt_call, call_bind, issued]
  cases (answer (.get (chainKey bucketPrefix remoteRef)) world).1 with
  | error error => cases error <;> rfl
  | ok body =>
      simp only [Prog.ofExcept, attempt_done, done_bind]
      cases ChainManifest.fromJsonBytes body <;> rfl

theorem chain?_put_chain
    {manifest : ChainManifest}
    (version : manifest.v = ChainManifest.schemaVersion) :
    (world.put (chainKey bucketPrefix remoteRef)
          (.chain manifest)).chain? bucketPrefix remoteRef =
      some manifest := by
  unfold World.chain?
  simp only [World.body?_put, if_true]
  rw [ChainManifest.fromJsonBytes_ok.2 ⟨rfl, version⟩]
  rfl

@[simp]
theorem run_writeChain (manifest : ChainManifest) :
    run answer (writeChain bucketPrefix remoteRef manifest) world =
      (.ok (),
        world.put (chainKey bucketPrefix remoteRef) (.chain manifest)) :=
  rfl

@[simp]
theorem run_writePathIndex (index : PathIndex) :
    run answer (writePathIndex bucketPrefix remoteRef index) world =
      (.ok (),
        world.put (pathIndexKey bucketPrefix remoteRef)
          (.pathIndex index)) :=
  rfl

end GitRemoteObjectStore
