import GitRemoteObjectStore.ObjectGraph

/-!
# Building packs

A baseline pack has the closure of what a tip peels to, an incremental pack
what a commit adds to a prior one, and either the tags on the way from the
tip.  Expanding commits and writing pack files are done by `gix`.
-/

namespace GitRemoteObjectStore

open Closure

/-! ## What `gix` does -/

/-- What `gix` answers when it counts objects and writes a pack file. -/
structure Packer where
  /--
  The commits reachable from a commit, but not from a hidden one, with what
  they are expanded to.
  -/
  expand : Odb → Sha → Option Sha → Except PackchainError (List Sha)
  write : List Sha → Except PackchainError BuiltPack

/-- What pack and bundle files have in them. -/
structure Contents where
  /-- The pack file of a name. -/
  packNamed : Sha40 → List UInt8
  packObjects : List UInt8 → Option (Finset Sha)
  bundleObjects : List UInt8 → Option (Finset Sha)

/-- The objects of the pack of a name. -/
def Contents.packed (contents : Contents) (name : Sha40) : Set Sha :=
  ((contents.packObjects (contents.packNamed name)).getD ∅ : Finset Sha)

/-- A pack has its own name, can be read, and has some objects. -/
structure Contents.Holds
    (contents : Contents)
    (built : BuiltPack)
    (names : Set Sha) : Prop where
  named : built.pack = contents.packNamed built.contentSha
  readable : (contents.packObjects built.pack).isSome
  inside : contents.packed built.contentSha = names

/-- The builder finds what is new, and writes it under its own name. -/
structure Packer.Exact
    (packer : Packer)
    (objects : Objects)
    (contents : Contents) : Prop where
  expandAll :
    ∀ odb commit oids,
      packer.expand odb commit none = .ok oids →
        { sha | sha ∈ oids } = objects.reach commit
  expandNew :
    ∀ odb commit prior oids,
      packer.expand odb commit (some prior) = .ok oids →
        { sha | sha ∈ oids } ⊆ objects.reach commit ∧
          objects.reach commit ⊆
            { sha | sha ∈ oids } ∪ objects.reach prior
  writes :
    ∀ oids built,
      packer.write oids = .ok built →
        built.pack = contents.packNamed built.contentSha ∧
          contents.packObjects built.pack = some oids.toFinset

/-! ## The two kinds of pack -/

/-- `build_pack` -/
def buildPack
    (packer : Packer)
    (seeds tagChain : List Sha) : Except PackchainError BuiltPack :=
  if (seeds ++ tagChain).isEmpty then .error .packBuild
  else packer.write (seeds ++ tagChain)

/-- `build_baseline_pack` -/
def buildBaselinePack
    (packer : Packer)
    (objects : Objects)
    (odb : Odb)
    (peeled : PeeledTip) : Except PackchainError BuiltPack :=
  match peeled with
  | .commit commit tagChain => do
      let seeds ← packer.expand odb commit none
      buildPack packer seeds tagChain
  | .tree tree tagChain => do
      let seeds ← (enumerateTreeClosure objects odb tree).mapError .git
      buildPack packer seeds tagChain
  | .blob blob tagChain => buildPack packer [blob] tagChain

/-- `build_incremental_pack` -/
def buildIncrementalPack
    (packer : Packer)
    (odb : Odb)
    (priorCommit localCommit : Sha)
    (tagChain : List Sha) : Except PackchainError BuiltPack := do
  let seeds ← packer.expand odb localCommit (some priorCommit)
  buildPack packer seeds tagChain

section Exact

variable
    {packer : Packer}
    {objects : Objects}
    {contents : Contents}
    {odb : Odb}

theorem Packer.Exact.buildPack_ok
    (exact : packer.Exact objects contents)
    {seeds tagChain : List Sha}
    {built : BuiltPack}
    (builds : buildPack packer seeds tagChain = .ok built) :
    contents.Holds built
      ({ sha | sha ∈ seeds } ∪ { sha | sha ∈ tagChain }) := by
  unfold buildPack at builds
  split at builds
  · cases builds
  rcases exact.writes _ _ builds with ⟨named, inside⟩
  refine ⟨named, by rw [inside]; rfl, ?_⟩
  unfold Contents.packed
  rw [← named, inside]
  ext sha
  simp

/-- A baseline pack has everything the tip reaches. -/
theorem Packer.Exact.baseline
    (exact : packer.Exact objects contents)
    {tip : Sha}
    {peeled : PeeledTip}
    (peels : peelTagChain objects odb tip = .ok peeled)
    {built : BuiltPack}
    (builds : buildBaselinePack packer objects odb peeled = .ok built) :
    contents.Holds built (objects.reach tip) := by
  have peelsTo := peelTagChain_ok peels
  have reaches := peelsTo.reaches
  rw [Set.union_comm] at reaches
  have packs
      {seeds : List Sha}
      (seeded : { sha | sha ∈ seeds } = objects.reach peeled.leaf)
      (written : buildPack packer seeds peeled.tagChain = .ok built) :
      contents.Holds built (objects.reach tip) := by
    have holds := exact.buildPack_ok written
    rw [seeded, ← reaches] at holds
    exact holds
  unfold buildBaselinePack at builds
  cases peeled with
  | commit commit tagChain =>
      simp only at builds
      cases expanded : packer.expand odb commit none with
      | error error =>
          rw [expanded] at builds
          cases builds
      | ok seeds =>
          rw [expanded] at builds
          exact
            packs (exact.expandAll odb commit seeds expanded) builds
  | tree tree tagChain =>
      simp only at builds
      cases enumerated : enumerateTreeClosure objects odb tree with
      | error error =>
          rw [enumerated] at builds
          cases builds
      | ok seeds =>
          rw [enumerated] at builds
          refine packs ?_ builds
          ext sha
          exact enumerateTreeClosure_ok enumerated sha
  | blob blob tagChain =>
      refine packs ?_ builds
      rcases peelsTo.kinded with ⟨content, known⟩
      have leaf : objects.links blob = [] := Objects.links_eq known
      ext sha
      rw [PeeledTip.leaf, Objects.reach, reach_of_nil leaf]
      simp

/-- An incremental pack has what the tip reaches and the prior does not. -/
theorem Packer.Exact.incremental
    (exact : packer.Exact objects contents)
    {tip commit prior : Sha}
    {tagChain : List Sha}
    (peels : peelTagChain objects odb tip = .ok (.commit commit tagChain))
    {built : BuiltPack}
    (builds :
      buildIncrementalPack packer odb prior commit tagChain =
        .ok built) :
    ∃ names,
      contents.Holds built names ∧
        names ⊆ objects.reach tip ∧
        objects.reach tip ⊆ names ∪ objects.reach prior := by
  have reaches := (peelTagChain_ok peels).reaches
  unfold buildIncrementalPack at builds
  cases expanded : packer.expand odb commit (some prior) with
  | error error =>
      rw [expanded] at builds
      cases builds
  | ok seeds =>
      rw [expanded] at builds
      rcases exact.expandNew odb commit prior seeds expanded with
        ⟨within, covers⟩
      refine ⟨_, exact.buildPack_ok builds, ?_, ?_⟩
      · rw [reaches, Set.union_comm]
        exact Set.union_subset_union_right _ within
      · rw [reaches]
        rintro sha (tag | reached)
        · exact Or.inl (Or.inr tag)
        · rcases covers reached with fresh | old
          · exact Or.inl (Or.inl fresh)
          · exact Or.inr old

end Exact

/-! ## Repositories over a database -/

/-- A local repository that answers what its database says. -/
structure RepoOver
    (repo : LocalRepo)
    (packer : Packer)
    (objects : Objects)
    (contents : Contents)
    (odb : Odb) : Prop where
  peels : ∀ tip, repo.peelTagChain tip = peelTagChain objects odb tip
  treeId : ∀ commit, repo.treeId commit = findTreeId objects odb commit
  walks : ∀ tree, repo.walkTree tree = walkTree objects odb tree
  baseline :
    ∀ peeled,
      repo.buildBaselinePack peeled =
        buildBaselinePack packer objects odb peeled
  incremental :
    ∀ prior commit tagChain,
      repo.buildIncrementalPack prior commit tagChain =
        buildIncrementalPack packer odb prior commit tagChain
  /-- A bundle has everything its object reaches. -/
  bundles :
    ∀ tip localSpec bytes,
      repo.bundleAt tip localSpec = .ok bytes →
        ∃ found,
          contents.bundleObjects bytes = some found ∧
            (found : Set Sha) = objects.reach tip

/-- The blobs of an extracted path index are reachable from its tip. -/
theorem RepoOver.extracted
    {repo : LocalRepo}
    {packer : Packer}
    {objects : Objects}
    {contents : Contents}
    {odb : Odb}
    (backed : RepoOver repo packer objects contents odb)
    {tip : Sha}
    {peeled : PeeledTip}
    (peels : repo.peelTagChain tip = .ok peeled)
    {index : PathIndex}
    (extracted : repo.extractPathIndex peeled tip = .ok (some index))
    {sha : Sha}
    (names : (PathNode.tree index.tree).Names sha) :
    sha ∈ objects.reach tip := by
  rw [backed.peels] at peels
  have peelsTo := peelTagChain_ok peels
  rw [peelsTo.reaches]
  right
  have walked
      {tree : Sha}
      (below : tree ∈ objects.reach peeled.leaf)
      {nodes : List (Text × PathNode)}
      (walks : repo.walkTree tree = .ok nodes)
      (same : index.tree = nodes) :
      sha ∈ objects.reach peeled.leaf := by
    rw [backed.walks] at walks
    rw [same] at names
    exact reach_subset_reach below (walkTree_names walks names)
  unfold LocalRepo.extractPathIndex at extracted
  cases peeled with
  | commit commit tagChain =>
      simp only at extracted
      split at extracted
      next tree found =>
          split at extracted
          next nodes walks =>
              cases extracted
              rw [backed.treeId] at found
              rcases findTreeId_ok found with ⟨-, parents, known⟩
              refine walked ?_ walks rfl
              apply closed_reach commit commit (self_mem_reach commit)
              rw [Objects.links_eq known]
              exact List.mem_cons_self
          · cases extracted
      · cases extracted
  | tree tree tagChain =>
      simp only at extracted
      split at extracted
      next nodes walks =>
          cases extracted
          exact walked (self_mem_reach tree) walks rfl
      · cases extracted
  | blob blob tagChain => cases extracted

/-! ## A small history -/

/-- Objects from a table whose entries agree about kinds. -/
def isTyped (table : List (Sha × GitObject)) : Bool :=
  table.all fun entry =>
    entry.2.expected.all fun target =>
      ((table.lookup target.1).map fun found =>
        decide (found.kind = target.2)).getD true

def Objects.ofTable
    (table : List (Sha × GitObject))
    (typed : isTyped table = true) : Objects where
  object? := fun sha => table.lookup sha
  typed := by
    intro sha object known target expected found again
    unfold isTyped at typed
    rw [List.all_eq_true] at typed
    have member : (sha, object) ∈ table := by
      rcases List.lookup_eq_some_iff.1 known with ⟨front, back, same, -⟩
      rw [same]
      exact List.mem_append_right _ List.mem_cons_self
    have each := typed (sha, object) member
    rw [List.all_eq_true] at each
    have agrees := each target expected
    rw [again] at agrees
    exact of_decide_eq_true agrees

/-- The object named by a digit. -/
def digit? (byte : UInt8) : Option Sha :=
  let digit := Char.ofNat byte.toNat
  if hex : isLowerHex digit = true then some (digitSha digit hex)
  else none

/-- Files that list the digits their objects are named by. -/
def Contents.digits : Contents where
  packNamed := fun name => name.text.map fun digit => digit.toUInt8
  packObjects := fun bytes => some (bytes.filterMap digit?).toFinset
  bundleObjects := fun bytes => some (bytes.filterMap digit?).toFinset

/-- The first digits of some names. -/
def firstDigits (oids : List Sha) : Text :=
  oids.filterMap fun oid => oid.text.head?

/-- A packer that lists what is reachable and checks what it writes. -/
def Packer.checked (objects : Objects) (bound : Nat) : Packer where
  expand := fun _ commit hidden =>
    match listing? objects.links bound commit, hidden with
    | some oids, none => .ok oids
    | some oids, some prior =>
        match listing? objects.links bound prior with
        | some old => .ok (oids.filter fun oid => oid ∉ old)
        | none => .error .packBuild
    | none, _ => .error .packBuild
  write := fun oids =>
    let digits := firstDigits oids
    match Sha40.tryNew
        ((digits ++ List.replicate 40 (digits.headD 'x')).take 40) with
    | none => .error .packBuild
    | some name =>
        let content := Contents.digits.packNamed name
        if Contents.digits.packObjects content = some oids.toFinset then
          .ok ⟨name, content.length, content, []⟩
        else .error .packBuild

theorem exact_checked (objects : Objects) (bound : Nat) :
    (Packer.checked objects bound).Exact objects .digits where
  expandAll := by
    intro odb commit oids expanded
    simp only [Packer.checked] at expanded
    cases listed : listing? objects.links bound commit with
    | none =>
        rw [listed] at expanded
        cases expanded
    | some nodes =>
        rw [listed] at expanded
        cases expanded
        ext sha
        exact mem_listing?_iff listed sha
  expandNew := by
    intro odb commit prior oids expanded
    simp only [Packer.checked] at expanded
    cases listed : listing? objects.links bound commit with
    | none =>
        rw [listed] at expanded
        cases expanded
    | some nodes =>
    cases listedPrior : listing? objects.links bound prior with
    | none =>
        simp only [listed, listedPrior] at expanded
        cases expanded
    | some old =>
        simp only [listed, listedPrior] at expanded
        cases expanded
        constructor
        · intro sha member
          exact
            (mem_listing?_iff listed sha).1
              (List.mem_of_mem_filter member)
        · intro sha reached
          by_cases known : sha ∈ old
          · exact Or.inr ((mem_listing?_iff listedPrior sha).1 known)
          · left
            exact
              List.mem_filter.2
                ⟨(mem_listing?_iff listed sha).2 reached,
                  decide_eq_true known⟩
  writes := by
    intro oids built written
    simp only [Packer.checked] at written
    split at written
    · cases written
    next name parsed =>
        split at written
        next right =>
            cases written
            exact ⟨rfl, right⟩
        · cases written

/-- A repository over a database, named by digits. -/
def checkedRepo
    (objects : Objects)
    (bound : Nat)
    (odb : Odb) : LocalRepo :=
  let packer := Packer.checked objects bound
  { LocalRepo.linear with
    peelTagChain := peelTagChain objects odb
    treeId := findTreeId objects odb
    walkTree := walkTree objects odb
    buildBaselinePack := buildBaselinePack packer objects odb
    buildIncrementalPack := buildIncrementalPack packer odb
    bundleAt := fun tip _ =>
      match listing? objects.links bound tip with
      | none => .error .bundle
      | some oids =>
          let content :=
            (firstDigits oids).map fun digit => digit.toUInt8
          if Contents.digits.bundleObjects content =
              some oids.toFinset then
            .ok content
          else .error .bundle }

theorem over_checked (objects : Objects) (bound : Nat) (odb : Odb) :
    RepoOver (checkedRepo objects bound odb)
      (Packer.checked objects bound) objects .digits odb where
  peels := fun _ => rfl
  treeId := fun _ => rfl
  walks := fun _ => rfl
  baseline := fun _ => rfl
  incremental := fun _ _ _ => rfl
  bundles := by
    intro tip localSpec bytes bundled
    simp only [checkedRepo] at bundled
    split at bundled
    · cases bundled
    next oids listed =>
        split at bundled
        next right =>
            cases bundled
            refine ⟨_, right, ?_⟩
            ext sha
            rw [Finset.mem_coe, List.mem_toFinset]
            exact mem_listing?_iff listed sha
        · cases bundled

/-- A file of a small history. -/
def fileEntry (name : Char) (blob : Sha) : TreeEntry :=
  ⟨.blob, .ok [name], blob⟩

/--
Three commits, the second of which adds a file and the third removes it
again, and a tag of the second one.
-/
def smallTable : List (Sha × GitObject) :=
  let f := fileEntry 'f' (digitSha '0' hex_0)
  let g := fileEntry 'g' (digitSha '1' hex_1)
  [(digitSha '0' hex_0, .blob [0]),
    (digitSha '1' hex_1, .blob [1]),
    (digitSha '2' hex_2, .tree [f]),
    (digitSha '3' hex_3, .tree [f, g]),
    (digitSha 'a' hex_a, .commit (digitSha '2' hex_2) []),
    (digitSha 'b' hex_b,
      .commit (digitSha '3' hex_3) [digitSha 'a' hex_a]),
    (digitSha 'c' hex_c,
      .commit (digitSha '2' hex_2) [digitSha 'b' hex_b]),
    (digitSha 'd' hex_d, .tag (digitSha 'b' hex_b))]

def smallObjects : Objects :=
  .ofTable smallTable (by decide +kernel)

/-- Enough steps to list what any of the objects reaches. -/
def smallBound : Nat := 40

/-- A repository of the small history. -/
def smallRepo : LocalRepo :=
  checkedRepo smallObjects smallBound
    (smallTable.map Prod.fst).toFinset

/-- The packer of the small history. -/
def smallPacker : Packer :=
  .checked smallObjects smallBound

theorem over_small :
    RepoOver smallRepo smallPacker smallObjects .digits
      (smallTable.map Prod.fst).toFinset :=
  over_checked _ _ _

end GitRemoteObjectStore
