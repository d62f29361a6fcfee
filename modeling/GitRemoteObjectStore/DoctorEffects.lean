import GitRemoteObjectStore.DoctorRepairs

/-!
# What `doctor` spares

A repository may be stored below the prefix of another one, and a chain may
have other bundles beside its baseline.  `doctor` asks of a bundle only that
its key ends like one, and of a lock only that it is stale; the conditions
below say exactly when this spares the inner repository and the baselines.
-/

namespace GitRemoteObjectStore.Doctor

open CallProgram Prog Separated

section Spared

variable
    [Platform]
    {bucketPrefix : Option Text}

/-! ## An inner repository -/

/-- The prefix of the repository `inner` below another one's. -/
def innerPrefix
    (bucketPrefix : Option Text) (inner : Text) : Option Text :=
  some (keyRoot bucketPrefix ++ inner)

/-- What a repository stores: in directories, or as one of its two files. -/
def Belongs (bucketPrefix : Option Text) (key : Text) : Prop :=
  ∃ relative,
    key = keyRoot bucketPrefix ++ relative ∧
      ('/' ∈ relative ∨ relative = lit "HEAD" ∨ relative = lit "FORMAT")

omit [Platform] in
theorem keyRoot_innerPrefix
    {inner : Text}
    (nonempty : inner ≠ []) :
    keyRoot (innerPrefix bucketPrefix inner) =
      keyRoot bucketPrefix ++ (inner ++ ['/']) := by
  simp [innerPrefix, keyRoot, nonempty]

section Inner

variable
    {inner : Text}
    {key : Text}

omit [Platform] in
theorem belongs_inner_iff (nonempty : inner ≠ []) :
    Belongs (innerPrefix bucketPrefix inner) key ↔
      ∃ relative,
        key = keyRoot bucketPrefix ++ (inner ++ '/' :: relative) ∧
          ('/' ∈ relative ∨ relative = lit "HEAD" ∨
            relative = lit "FORMAT") := by
  unfold Belongs
  rw [keyRoot_innerPrefix nonempty]
  simp only [List.append_assoc, List.singleton_append]

omit [Platform] in
/-- The bundles of the inner repository are at paths below it. -/
theorem belongs_bundleAt_iff
    (nonempty : inner ≠ [])
    {refPath : Text}
    {sha : Sha40} :
    Belongs (innerPrefix bucketPrefix inner)
        (bundleAt bucketPrefix refPath sha) ↔
      ∃ innerRef, refPath = inner ++ '/' :: innerRef := by
  rw [belongs_inner_iff nonempty]
  constructor
  · rintro ⟨relative, same, kind⟩
    unfold bundleAt bundlePath at same
    rw [List.append_cancel_left_eq] at same
    have file
        (name : Text)
        (noSlash : '/' ∉ name)
        (short : name.length < 40)
        (named : relative = name) : False := by
      subst named
      have last :=
        ((append_separator_inj (bundle_no_slash sha) noSlash).1 same).2
      have lengths := congrArg List.length last
      simp only [List.length_append, sha.length_text] at lengths
      omega
    rcases kind with slash | head | format
    · rcases exists_last slash with ⟨front, last, rfl, absent⟩
      refine ⟨front, ?_⟩
      apply
        ((append_separator_inj (bundle_no_slash sha) absent).1
          (same.trans ?_)).1
      simp
    · exact (file _ (by simp [lit_eq]) (by simp [lit_eq]) head).elim
    · exact (file _ (by simp [lit_eq]) (by simp [lit_eq]) format).elim
  · rintro ⟨innerRef, rfl⟩
    exact
      ⟨bundlePath innerRef sha, by simp [bundleAt, bundlePath],
        Or.inl (by simp [bundlePath])⟩

omit [Platform] in
/-- Quarantine does not leave the repository a bundle is in. -/
theorem inner_of_quarantinePath
    {refPath innerRef : Text}
    {runId : Component}
    (same : quarantinePath refPath runId = inner ++ '/' :: innerRef) :
    ∃ otherRef, refPath = inner ++ '/' :: otherRef := by
  unfold quarantinePath at same
  rcases List.append_eq_append_iff.1 same with
    ⟨middle, -, tail⟩ | ⟨middle, front, tail⟩
  · have slash : '/' ∈ '_' :: runId.text.take 8 := by
      rw [tail]
      simp
    rcases List.mem_cons.1 slash with underscore | inside
    · cases underscore
    · exact (runId.no_slash (List.mem_of_mem_take inside)).elim
  · cases middle with
    | nil => simp at tail
    | cons first rest =>
        rw [List.cons_append] at tail
        cases tail
        exact ⟨rest, front⟩

omit [Platform] in
theorem not_belongs_headKey (nonempty : inner ≠ []) :
    ¬ Belongs (innerPrefix bucketPrefix inner) (headKey bucketPrefix) := by
  rw [belongs_inner_iff nonempty]
  rintro ⟨relative, same, -⟩
  rw [headKey, join_eq, List.append_cancel_left_eq] at same
  have slash : '/' ∈ lit "HEAD" := by
    rw [same]
    simp
  simp [lit_eq] at slash

/-- No path below the inner repository shows two bundles. -/
def SingleBundles
    (bucketPrefix : Option Text) (inner : Text) (world : World) : Prop :=
  ∀ refPath first second,
    Shown bucketPrefix world (inner ++ '/' :: refPath) first →
      Shown bucketPrefix world (inner ++ '/' :: refPath) second →
        first = second

/-- No lock of a repository is past the TTL. -/
def FreshLocks
    (bucketPrefix : Option Text) (ttl : Int) (world : World) : Prop :=
  ∀ key object,
    Belongs bucketPrefix key → isLockKey key = true →
      world.get? key = some object →
        isStale ttl world.clock object.lastModified = false

/-- A repair spares the inner repository it has nothing to repair in. -/
theorem get?_repair
    {opts : DoctorOpts}
    {start state later : World}
    (nonempty : inner ≠ [])
    (single : SingleBundles bucketPrefix inner start)
    (fresh :
      opts.deleteStaleLocks = true →
        FreshLocks (innerPrefix bucketPrefix inner) opts.lockTtl start)
    (belongs : Belongs (innerPrefix bucketPrefix inner) key)
    (repair : Repair bucketPrefix opts start state later) :
    later.get? key = state.get? key := by
  cases repair with
  | evict shown different beside =>
      rename_i refPath losing keeper
      have outside
          (innerRef : Text)
          (path : refPath = inner ++ '/' :: innerRef) : False := by
        subst path
        exact different (single innerRef keeper losing beside shown)
      apply get?_evicted
      · rintro rfl
        rcases (belongs_bundleAt_iff nonempty).1 belongs with
          ⟨innerRef, path⟩
        exact outside innerRef path
      · rintro runId rfl
        rcases (belongs_bundleAt_iff nonempty).1 belongs with
          ⟨innerRef, path⟩
        rcases inner_of_quarantinePath path with ⟨otherRef, path⟩
        exact outside otherRef path
  | head =>
      apply World.get?_put_ne
      rintro rfl
      exact not_belongs_headKey nonempty belongs
  | unlock asked below lock listed stale =>
      apply World.get?_remove_ne
      rintro rfl
      have live := fresh asked _ _ belongs lock listed
      rw [stale] at live
      cases live

/-- When `doctor` leaves a repository below its prefix alone. -/
theorem inner_unchanged_iff
    (opts : DoctorOpts)
    (world : World)
    (nonempty : inner ≠ []) :
    (∀ prompter key,
      Belongs (innerPrefix bucketPrefix inner) key →
        (run answer (runInto bucketPrefix opts prompter) world).2.get? key =
          world.get? key) ↔
      SingleBundles bucketPrefix inner world ∧
        (opts.deleteStaleLocks = true →
          FreshLocks (innerPrefix bucketPrefix inner) opts.lockTtl
            world) := by
  constructor
  · intro unchanged
    constructor
    · intro refPath first second shown shown'
      by_contra different
      rcases
        exists_prompter_evicting opts shown (Ne.symm different) shown' with
        ⟨prompter, absent⟩
      have belongs :
          Belongs (innerPrefix bucketPrefix inner)
            (bundleAt bucketPrefix (inner ++ '/' :: refPath) first) :=
        (belongs_bundleAt_iff nonempty).2 ⟨refPath, rfl⟩
      have present := shown.present
      rw [← bundleAt, ← unchanged prompter _ belongs, absent] at present
      cases present
    · intro asked key object belongs lock found
      by_contra stale
      rcases (belongs_inner_iff nonempty).1 belongs with ⟨relative, rfl, -⟩
      rcases
        exists_prompter_unlocking asked (List.prefix_append ..) lock found
          (by simpa using stale) with ⟨prompter, absent⟩
      have kept := unchanged prompter _ belongs
      rw [absent, found] at kept
      cases kept
  · rintro ⟨single, fresh⟩ prompter key belongs
    apply
      (repairs_runInto bucketPrefix opts prompter world).keep
        fun later => later.get? key = world.get? key
    · intro state later repair same
      rw [get?_repair nonempty single fresh belongs repair, same]
    · rfl

end Inner

/-! ## Baselines -/

/-- A chain that is stored still has its baseline, if it had it before. -/
def KeepsBaselines
    (bucketPrefix : Option Text) (world later : World) : Prop :=
  ∀ refPath manifest,
    later.body? (keyRoot bucketPrefix ++ chainPath refPath) =
        some (.chain manifest) →
      (world.get? (bundleAt bucketPrefix refPath manifest.fullAt)).isSome →
        (later.get?
          (bundleAt bucketPrefix refPath manifest.fullAt)).isSome

/-- No baseline is shown beside another bundle. -/
def LoneBaselines
    (bucketPrefix : Option Text) (world : World) : Prop :=
  ∀ refPath manifest,
    world.body? (keyRoot bucketPrefix ++ chainPath refPath) =
        some (.chain manifest) →
      Shown bucketPrefix world refPath manifest.fullAt →
        ∀ other,
          Shown bucketPrefix world refPath other →
            other = manifest.fullAt

section Baselines

variable
    {opts : DoctorOpts}
    {start state later : World}

/-- No repair touches a chain. -/
theorem get?_repair_chain
    (refPath : Text)
    (repair : Repair bucketPrefix opts start state later) :
    later.get? (keyRoot bucketPrefix ++ chainPath refPath) =
      state.get? (keyRoot bucketPrefix ++ chainPath refPath) := by
  have different (other : Text) (sha : Sha40) :
      keyRoot bucketPrefix ++ chainPath refPath ≠
        bundleAt bucketPrefix other sha := by
    unfold bundleAt chainPath bundlePath
    rw [Ne, List.append_cancel_left_eq]
    intro same
    have last :=
      ((append_separator_inj (by simp [lit_eq]) (bundle_no_slash sha)).1
        same).2
    have lengths := congrArg List.length last
    simp [sha.length_text, lit_eq] at lengths
  cases repair with
  | evict => exact get?_evicted (different _ _) fun _ => different _ _
  | head =>
      apply World.get?_put_ne
      rw [headKey, join_eq, Ne, List.append_cancel_left_eq]
      intro same
      have lengths := congrArg List.length same
      simp [chainPath, lit_eq] at lengths
  | unlock asked below lock listed stale =>
      apply World.get?_remove_ne
      rintro rfl
      rw [chainPath, not_isLockKey (by simp [lit_eq])] at lock
      cases lock

/-- A repair spares a bundle it has no other one to keep for. -/
theorem present_repair
    {refPath : Text}
    {sha : Sha40}
    (lone :
      Shown bucketPrefix start refPath sha →
        ∀ other, Shown bucketPrefix start refPath other → other = sha)
    (repair : Repair bucketPrefix opts start state later)
    (present : (state.get? (bundleAt bucketPrefix refPath sha)).isSome) :
    (later.get? (bundleAt bucketPrefix refPath sha)).isSome := by
  cases repair with
  | evict shown different beside =>
      apply present_evicted _ present
      intro same
      rcases bundleAt_inj.1 same with ⟨rfl, rfl⟩
      exact different (lone shown _ beside)
  | head =>
      rw [World.get?_put_ne _ _ _ (bundleAt_ne_headKey refPath sha)]
      exact present
  | unlock asked below lock listed stale =>
      rw [World.get?_remove_ne]
      · exact present
      · rintro rfl
        rw [bundleAt, bundlePath,
          not_isLockKey (by simp [List.getLast?_cons, lit_eq])] at lock
        cases lock

/-- A run leaves every chain as it was. -/
theorem body?_runInto_chain
    (opts : DoctorOpts)
    (prompter : Prompter)
    (world : World)
    (refPath : Text) :
    (run answer (runInto bucketPrefix opts prompter) world).2.body?
        (keyRoot bucketPrefix ++ chainPath refPath) =
      world.body? (keyRoot bucketPrefix ++ chainPath refPath) := by
  unfold World.body?
  congr 1
  apply
    (repairs_runInto bucketPrefix opts prompter world).keep
      fun later =>
        later.get? (keyRoot bucketPrefix ++ chainPath refPath) =
          world.get? (keyRoot bucketPrefix ++ chainPath refPath)
  · intro state later repair same
    rw [get?_repair_chain refPath repair, same]
  · rfl

/-- When every chain keeps its baseline, whatever the operator answers. -/
theorem baselines_kept_iff
    (opts : DoctorOpts)
    (world : World) :
    (∀ prompter,
      KeepsBaselines bucketPrefix world
        (run answer (runInto bucketPrefix opts prompter) world).2) ↔
      LoneBaselines bucketPrefix world := by
  constructor
  · intro kept refPath manifest stored shown other shown'
    by_contra different
    rcases exists_prompter_evicting opts shown different shown' with
      ⟨prompter, absent⟩
    have present :=
      kept prompter refPath manifest
        (by rw [body?_runInto_chain, stored]) shown.present
    rw [absent] at present
    cases present
  · intro lone prompter refPath manifest stored present
    rw [body?_runInto_chain] at stored
    apply
      (repairs_runInto bucketPrefix opts prompter world).keep
        fun later =>
          (later.get?
            (bundleAt bucketPrefix refPath manifest.fullAt)).isSome
    · intro state later repair before
      exact
        present_repair (lone refPath manifest stored) repair before
    · exact present

end Baselines

end Spared

section Schedules

attribute [local instance] Platform.simple

/-- An inner branch with a second bundle an interrupted push left. -/
def innerBranch : World :=
  let ref := lit "refs/heads/main"
  (((((World.empty 0).put (lit "HEAD") (.text ref)).put
    (bundleAt none ref (digitSha 'a' hex_a)) (.file [])).put
    (lit "x/HEAD") (.text ref)).put
    (bundleAt none (lit "x/refs/heads/main") (digitSha 'b' hex_b)) (.file [])).put
    (bundleAt none (lit "x/refs/heads/main") (digitSha 'c' hex_c)) (.file [])

/-- The default options. -/
def DoctorOpts.standard : DoctorOpts :=
  ⟨false, 60, false, .bundle⟩

theorem inner_unchanged_innerBranch :
    (∀ prompter key,
      Belongs (innerPrefix none ['x']) key →
        (run answer (runInto none .standard prompter) innerBranch).2.get?
            key =
          innerBranch.get? key) ↔
      SingleBundles none ['x'] innerBranch ∧
        (DoctorOpts.standard.deleteStaleLocks = true →
          FreshLocks (innerPrefix none ['x']) DoctorOpts.standard.lockTtl
            innerBranch) :=
  inner_unchanged_iff .standard innerBranch (by decide)

/-- The outer repository's `doctor` moves a bundle of the inner one. -/
theorem inner_changed :
    ¬ ∀ bucketPrefix inner opts world prompter key,
      inner ≠ [] → Belongs (innerPrefix bucketPrefix inner) key →
        (run answer (runInto bucketPrefix opts prompter) world).2.get? key =
          world.get? key := by
  intro unchanged
  have kept :=
    unchanged none ['x'] .standard innerBranch
      (.keeping (lit "x/refs/heads/main") 0)
      (bundleAt none (lit "x/refs/heads/main") (digitSha 'b' hex_b))
      (by decide)
      ((belongs_bundleAt_iff (by decide)).2 ⟨lit "refs/heads/main", by decide +kernel⟩)
  have moved :
      ((run answer
          (runInto none .standard
            (.keeping (lit "x/refs/heads/main") 0)) innerBranch).2.get?
        (bundleAt none (lit "x/refs/heads/main") (digitSha 'b' hex_b))).isSome ≠
      (innerBranch.get?
        (bundleAt none (lit "x/refs/heads/main")
          (digitSha 'b' hex_b))).isSome := by
    decide +kernel
  exact moved (congrArg Option.isSome kept)

/-- A chain whose only segment reaches back to its baseline. -/
def firstChain : ChainManifest :=
  let tip := digitSha 'a' hex_a
  ⟨ChainManifest.schemaVersion, tip, tip,
    [⟨tip, none, lit "packs/" ++ tip.text ++ lit ".pack", 1⟩]⟩

/-- A chain beside a bundle an interrupted push left. -/
def orphanBeside : World :=
  let ref := lit "refs/heads/main"
  (((World.empty 0).put (bundleAt none ref (digitSha 'b' hex_b))
    (.file [])).put
    (bundleAt none ref firstChain.fullAt) (.file [])).put
    (chainPath ref) (.chain firstChain)

/-- Keeping the orphan evicts the baseline. -/
theorem baseline_evicted :
    ¬ ∀ bucketPrefix opts world prompter,
      KeepsBaselines bucketPrefix world
        (run answer (runInto bucketPrefix opts prompter) world).2 := by
  intro kept
  let ref := lit "refs/heads/main"
  have evicted :
      ((run answer (runInto none .standard (.keeping ref 1))
        orphanBeside).2.get?
        (bundleAt none ref firstChain.fullAt)).isSome = false := by
    decide +kernel
  have stored :
      (run answer (runInto none .standard (.keeping ref 1))
        orphanBeside).2.body? (keyRoot none ++ chainPath ref) =
        some (.chain firstChain) := by
    rw [body?_runInto_chain]
    exact congrArg (Option.map Object.body) (World.get?_put_self ..)
  have present :=
    kept none .standard orphanBeside (.keeping ref 1) ref firstChain
      stored (by decide +kernel)
  rw [evicted] at present
  cases present

end Schedules

end GitRemoteObjectStore.Doctor
