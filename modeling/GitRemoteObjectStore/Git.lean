import GitRemoteObjectStore.ObjectStore

/-!
# The local git repository

Opening the repository, resolving names, peeling tags, finding merge bases,
building packs and bundles and walking trees are done by `gix`.  A local
repository is represented by the answers it gives; what the source computes
from these answers is written out.
-/

namespace GitRemoteObjectStore

/-- Where a tag chain ends, with the tag objects on the way. -/
inductive PeeledTip where
  | commit (commit : Sha) (tagChain : List Sha)
  | tree (tree : Sha) (tagChain : List Sha)
  | blob (blob : Sha) (tagChain : List Sha)

/-- A pack file, its index and the name of its content. -/
structure BuiltPack where
  contentSha : Sha40
  packBytes : Nat
  pack : List UInt8
  idx : List UInt8

/-- The answers of a local repository. -/
structure LocalRepo where
  /-- `gix::open` -/
  opened : Except GitError Unit
  /-- `git::branch::resolve`, without the reason of a failure. -/
  resolve : Text → Option Sha
  /-- `merge_base`; `none` when the histories are unrelated. -/
  mergeBase : Sha → Sha → Except GitError (Option Sha)
  peelTagChain : Sha → Except GitError PeeledTip
  revWalkCrossesShallowBoundary : Sha → Except PackchainError Bool
  /-- `git::archive` of a rev-spec. -/
  archive : Text → Except GitError (List UInt8)
  /-- `bundle::create` of an object under a rev-spec. -/
  bundleAt : Sha → Text → Except GitError (List UInt8)
  buildBaselinePack : PeeledTip → Except PackchainError BuiltPack
  buildIncrementalPack :
    Sha → Sha → List Sha → Except PackchainError BuiltPack
  /-- The tree of a commit. -/
  treeId : Sha → Except GitError Sha
  walkTree : Sha → Except PackchainError (List (Text × PathNode))

namespace LocalRepo

/-- Whether one commit is reachable from another. -/
def isAncestor
    (repo : LocalRepo)
    (ancestor descendant : Sha) : Except GitError Bool :=
  if ancestor = descendant then .ok true
  else
    match repo.mergeBase ancestor descendant with
    | .ok (some base) => .ok (decide (base = ancestor))
    | .ok none => .ok false
    | .error error => .error error

@[simp]
theorem isAncestor_self (repo : LocalRepo) (sha : Sha) :
    repo.isAncestor sha sha = .ok true := by
  simp [isAncestor]

/-- The path index of a tip; a blob has none. -/
def extractPathIndex
    (repo : LocalRepo)
    (peeled : PeeledTip)
    (unpeeledTip : Sha) : Except PackchainError (Option PathIndex) :=
  let indexOf (tree : Sha) : Except PackchainError (Option PathIndex) :=
    match repo.walkTree tree with
    | .ok root => .ok (some ⟨PathIndex.schemaVersion, unpeeledTip, root⟩)
    | .error error => .error error
  match peeled with
  | .commit commit _ =>
      match repo.treeId commit with
      | .ok tree => indexOf tree
      | .error error => .error (.git error)
  | .tree tree _ => indexOf tree
  | .blob _ _ => .ok none

/-- Every path index is one of the tip it was extracted for. -/
theorem extractPathIndex_tip
    {repo : LocalRepo}
    {peeled : PeeledTip}
    {unpeeledTip : Sha}
    {index : PathIndex}
    (extracted :
      repo.extractPathIndex peeled unpeeledTip = .ok (some index)) :
    index.tip = unpeeledTip := by
  unfold extractPathIndex at extracted
  cases peeled with
  | commit commit _ =>
      simp only at extracted
      split at extracted
      · split at extracted
        · cases extracted
          rfl
        · cases extracted
      · cases extracted
  | tree tree _ =>
      simp only at extracted
      split at extracted
      · cases extracted
        rfl
      · cases extracted
  | blob _ _ => cases extracted

end LocalRepo

/-! ## A linear history -/

/-- The object name made of one digit. -/
def digitSha
    (digit : Char)
    (hex : isLowerHex digit = true) : Sha :=
  ⟨List.replicate 40 digit, by simp [isValidBundleStem, hex]⟩

theorem hex_0 : isLowerHex '0' = true := rfl

theorem hex_1 : isLowerHex '1' = true := rfl

theorem hex_2 : isLowerHex '2' = true := rfl

theorem hex_3 : isLowerHex '3' = true := rfl

theorem hex_a : isLowerHex 'a' = true := rfl

theorem hex_b : isLowerHex 'b' = true := rfl

theorem hex_c : isLowerHex 'c' = true := rfl

theorem hex_d : isLowerHex 'd' = true := rfl

/--
A repository to run schedules on: one commit for each hex digit, in the order
of the digits, and packs named like the commit they end in.
-/
def LocalRepo.linear : LocalRepo where
  opened := .ok ()
  resolve := fun
    | [digit] =>
        if hex : isLowerHex digit = true then some (digitSha digit hex)
        else none
    | _ => none
  mergeBase := fun left right =>
    .ok (some (if left.text ≤ right.text then left else right))
  peelTagChain := fun tip => .ok (.commit tip [])
  revWalkCrossesShallowBoundary := fun _ => .ok false
  archive := fun _ => .ok []
  bundleAt := fun _ _ => .ok []
  buildBaselinePack := fun
    | .commit commit _ => .ok ⟨commit, 0, [], []⟩
    | .tree tree _ => .ok ⟨tree, 0, [], []⟩
    | .blob blob _ => .ok ⟨blob, 0, [], []⟩
  buildIncrementalPack := fun _ commit _ => .ok ⟨commit, 0, [], []⟩
  treeId := fun commit => .ok commit
  walkTree := fun _ => .ok []

theorem LocalRepo.resolve_linear
    {digit : Char}
    (hex : isLowerHex digit = true) :
    LocalRepo.linear.resolve [digit] = some (digitSha digit hex) :=
  dif_pos hex

end GitRemoteObjectStore
