import Mathlib.Data.Finset.Card
import GitRemoteObjectStore.Git
import GitRemoteObjectStore.Library.Closure

/-!
# The graph of git objects

An object has the name of its content, so one function says which object a
name is of, in every repository.  An object database is the set of names it
has.  Peeling a tag chain, walking a tree into a path index and listing the
closure of a tree are computed from what the database has.
-/

namespace GitRemoteObjectStore

open Closure

/-! ## Objects -/

/-- The kind of a tree entry; a commit is a submodule. -/
inductive EntryKind where
  | tree
  | blob
  | blobExecutable
  | link
  | commit
deriving DecidableEq

/-- The kind of an object. -/
inductive ObjectKind where
  | commit
  | tag
  | tree
  | blob
deriving DecidableEq

/-- An entry of a tree; a name that is not UTF-8 has only its bytes. -/
structure TreeEntry where
  kind : EntryKind
  filename : Except (List UInt8) Text
  oid : Sha

inductive GitObject where
  | commit (tree : Sha) (parents : List Sha)
  | tag (target : Sha)
  | tree (entries : List TreeEntry)
  | blob (content : List UInt8)

/-- What kind of object an entry is of; a submodule is of none here. -/
def EntryKind.expected? : EntryKind → Option ObjectKind
  | .tree => some .tree
  | .blob => some .blob
  | .blobExecutable => some .blob
  | .link => some .blob
  | .commit => none

theorem EntryKind.exists_expected
    {kind : EntryKind}
    (inside : kind ≠ .commit) :
    ∃ expected, kind.expected? = some expected := by
  cases kind with
  | commit => exact absurd rfl inside
  | _ => exact ⟨_, rfl⟩

/-- What an entry names in its own repository, and of which kind. -/
def TreeEntry.target? (entry : TreeEntry) : Option (Sha × ObjectKind) :=
  entry.kind.expected?.map fun kind => (entry.oid, kind)

/-- The kind of an object. -/
def GitObject.kind : GitObject → ObjectKind
  | .commit _ _ => .commit
  | .tag _ => .tag
  | .tree _ => .tree
  | .blob _ => .blob

/-- The objects an object names, but for the target of a tag, by kind. -/
def GitObject.expected : GitObject → List (Sha × ObjectKind)
  | .commit root parents =>
      (root, .tree) :: parents.map fun parent => (parent, .commit)
  | .tree entries => entries.filterMap TreeEntry.target?
  | .tag _ => []
  | .blob _ => []

/-- The objects an object names. -/
def GitObject.links : GitObject → List Sha
  | .tag target => [target]
  | other => other.expected.map Prod.fst

/-- Which object a name is of; named objects are of the kind expected. -/
structure Objects where
  object? : Sha → Option GitObject
  typed :
    ∀ sha object,
      object? sha = some object →
        ∀ target ∈ object.expected, ∀ found,
          object? target.1 = some found → found.kind = target.2

/-- The names an object's name leads to. -/
def Objects.links (objects : Objects) (sha : Sha) : List Sha :=
  ((objects.object? sha).map GitObject.links).getD []

theorem Objects.links_eq
    {objects : Objects}
    {sha : Sha}
    {object : GitObject}
    (known : objects.object? sha = some object) :
    objects.links sha = object.links := by
  unfold Objects.links
  rw [known]
  rfl

/-- A tree expects what its entries name. -/
theorem mem_expected_tree
    {entries : List TreeEntry}
    {sha : Sha}
    {kind : ObjectKind} :
    (sha, kind) ∈ (GitObject.tree entries).expected ↔
      ∃ entry ∈ entries,
        entry.kind.expected? = some kind ∧ entry.oid = sha := by
  simp only [GitObject.expected, List.mem_filterMap, TreeEntry.target?,
    Option.map_eq_some_iff, Prod.mk.injEq]
  constructor
  · rintro ⟨entry, member, found, expected, same, rfl⟩
    exact ⟨entry, member, expected, same⟩
  · rintro ⟨entry, member, expected, same⟩
    exact ⟨entry, member, kind, expected, same, rfl⟩

/-- A tree links to what its entries name. -/
theorem Objects.mem_links_tree
    {objects : Objects}
    {tree sha : Sha}
    {entries : List TreeEntry}
    (known : objects.object? tree = some (.tree entries)) :
    sha ∈ objects.links tree ↔
      ∃ entry ∈ entries,
        ∃ kind, entry.kind.expected? = some kind ∧ entry.oid = sha := by
  rw [Objects.links_eq known, GitObject.links, List.mem_map]
  · constructor
    · rintro ⟨⟨_, kind⟩, member, rfl⟩
      rcases mem_expected_tree.1 member with ⟨entry, inside, expected, same⟩
      exact ⟨entry, inside, kind, expected, same⟩
    · rintro ⟨entry, member, kind, expected, same⟩
      exact
        ⟨(sha, kind), mem_expected_tree.2 ⟨entry, member, expected, same⟩,
          rfl⟩
  · intro target impossible
    cases impossible

/-- Everything reachable from a name. -/
abbrev Objects.reach (objects : Objects) (sha : Sha) : Set Sha :=
  Closure.reach objects.links sha

/-- An object database. -/
abbrev Odb : Type :=
  Finset Sha

/-- `find_object` -/
def findObject
    (objects : Objects)
    (odb : Odb)
    (sha : Sha) : Except GitError GitObject :=
  if sha ∈ odb then
    match objects.object? sha with
    | some object => .ok object
    | none => .error .findObject
  else .error .findObject

theorem findObject_ok
    {objects : Objects}
    {odb : Odb}
    {sha : Sha}
    {object : GitObject} :
    findObject objects odb sha = .ok object ↔
      sha ∈ odb ∧ objects.object? sha = some object := by
  unfold findObject
  by_cases inside : sha ∈ odb
  · cases known : objects.object? sha with
    | none => simp [inside]
    | some found => simp [inside]
  · simp [inside]

/-! ## Tag chains -/

/-- The object a tag chain ends in. -/
def PeeledTip.leaf : PeeledTip → Sha
  | .commit found _ => found
  | .tree found _ => found
  | .blob found _ => found

/-- The tag objects on the way. -/
def PeeledTip.tagChain : PeeledTip → List Sha
  | .commit _ tagChain => tagChain
  | .tree _ tagChain => tagChain
  | .blob _ tagChain => tagChain

/--
One tag after another.  The objects visited are the tags so far, which are
distinct objects of the database, so the bound is not reached.
-/
def peelFrom
    (objects : Objects)
    (odb : Odb) :
    Nat → List Sha → Sha → Except GitError PeeledTip
  | 0, _, current => .error (.tagChainCycle current)
  | bound + 1, tagChain, current =>
      if current ∈ tagChain then .error (.tagChainCycle current)
      else
        match findObject objects odb current with
        | .error error => .error error
        | .ok (.commit _ _) => .ok (.commit current tagChain)
        | .ok (.tag target) =>
            peelFrom objects odb bound (tagChain ++ [current]) target
        | .ok (.tree _) => .ok (.tree current tagChain)
        | .ok (.blob _) => .ok (.blob current tagChain)

/-- `peel_tag_chain` -/
def peelTagChain
    (objects : Objects)
    (odb : Odb)
    (tip : Sha) : Except GitError PeeledTip :=
  peelFrom objects odb (odb.card + 1) [] tip

/-- A tag chain ends in an object of the kind it says. -/
def PeeledTip.Kinded (objects : Objects) : PeeledTip → Prop
  | .commit found _ =>
      ∃ root parents, objects.object? found = some (.commit root parents)
  | .tree found _ => ∃ entries, objects.object? found = some (.tree entries)
  | .blob found _ => ∃ content, objects.object? found = some (.blob content)

/-- What peeling a tip finds. -/
structure PeelsTo
    (objects : Objects)
    (odb : Odb)
    (tip : Sha)
    (peeled : PeeledTip) : Prop where
  kinded : peeled.Kinded objects
  present : ∀ sha, sha = peeled.leaf ∨ sha ∈ peeled.tagChain → sha ∈ odb
  /-- The tip reaches its tags and what their last target reaches. -/
  reaches :
    objects.reach tip =
      { sha | sha ∈ peeled.tagChain } ∪ objects.reach peeled.leaf

theorem peelFrom_ok
    {objects : Objects}
    {odb : Odb}
    {bound : Nat}
    {tagChain : List Sha}
    {current : Sha}
    {peeled : PeeledTip}
    (peels : peelFrom objects odb bound tagChain current = .ok peeled) :
    ∃ inner,
      peeled.tagChain = tagChain ++ inner ∧
        peeled.Kinded objects ∧
        (∀ sha, sha = peeled.leaf ∨ sha ∈ inner → sha ∈ odb) ∧
        objects.reach current =
          { sha | sha ∈ inner } ∪ objects.reach peeled.leaf := by
  induction bound generalizing tagChain current with
  | zero => cases peels
  | succ bound hypothesis =>
      unfold peelFrom at peels
      split at peels
      · cases peels
      have ended
          {found : PeeledTip}
          {object : GitObject}
          (same : peeled = found)
          (chain : found.tagChain = tagChain)
          (leaf : found.leaf = current)
          (known : findObject objects odb current = .ok object)
          (kinded : found.Kinded objects) :
          ∃ inner,
            peeled.tagChain = tagChain ++ inner ∧
              peeled.Kinded objects ∧
              (∀ sha, sha = peeled.leaf ∨ sha ∈ inner → sha ∈ odb) ∧
              objects.reach current =
                { sha | sha ∈ inner } ∪ objects.reach peeled.leaf := by
        subst same
        refine ⟨[], ?_, kinded, ?_, ?_⟩
        · rw [chain, List.append_nil]
        · rintro sha (rfl | member)
          · rw [leaf]
            exact (findObject_ok.1 known).1
          · cases member
        · rw [leaf]
          simp
      split at peels
      · cases peels
      next tree parents known =>
          cases peels
          exact
            ended rfl rfl rfl known
              ⟨tree, parents, (findObject_ok.1 known).2⟩
      next target known =>
          rcases hypothesis peels with
            ⟨inner, chain, kinded, present, reaches⟩
          rcases findObject_ok.1 known with ⟨inside, tag⟩
          refine ⟨current :: inner, ?_, kinded, ?_, ?_⟩
          · rw [chain, List.append_assoc, List.singleton_append]
          · rintro sha (same | member)
            · exact present sha (Or.inl same)
            · rcases List.mem_cons.1 member with rfl | member
              · exact inside
              · exact present sha (Or.inr member)
          · have single : objects.links current = [target] :=
              Objects.links_eq tag
            have further :
                Closure.reach objects.links target =
                  { sha | sha ∈ inner } ∪ objects.reach peeled.leaf :=
              reaches
            rw [Objects.reach, reach_of_single single, further]
            ext sha
            simp only [Set.mem_insert_iff, Set.mem_union,
              Set.mem_ofPred_eq, List.mem_cons]
            rw [or_assoc]
      next entries known =>
          cases peels
          exact
            ended rfl rfl rfl known
              ⟨entries, (findObject_ok.1 known).2⟩
      next content known =>
          cases peels
          exact
            ended rfl rfl rfl known
              ⟨content, (findObject_ok.1 known).2⟩

theorem peelTagChain_ok
    {objects : Objects}
    {odb : Odb}
    {tip : Sha}
    {peeled : PeeledTip}
    (peels : peelTagChain objects odb tip = .ok peeled) :
    PeelsTo objects odb tip peeled := by
  rcases peelFrom_ok peels with ⟨inner, chain, kinded, present, reaches⟩
  rw [List.nil_append] at chain
  subst chain
  exact ⟨kinded, present, reaches⟩

/-! ## Trees -/

/-- The entries of a tree, if the object is one. -/
def findTree
    (objects : Objects)
    (odb : Odb)
    (sha : Sha) : Except GitError (List TreeEntry) :=
  match findObject objects odb sha with
  | .error error => .error error
  | .ok (.tree entries) => .ok entries
  | .ok _ => .error .peelToKind

theorem findTree_ok
    {objects : Objects}
    {odb : Odb}
    {sha : Sha}
    {entries : List TreeEntry}
    (found : findTree objects odb sha = .ok entries) :
    sha ∈ odb ∧ objects.object? sha = some (.tree entries) := by
  unfold findTree at found
  split at found
  · cases found
  next known =>
      cases found
      exact findObject_ok.1 known
  · cases found

/-- The tree of a commit. -/
def findTreeId
    (objects : Objects)
    (odb : Odb)
    (sha : Sha) : Except GitError Sha :=
  match findObject objects odb sha with
  | .error error => .error error
  | .ok (.commit root _) => .ok root
  | .ok _ => .error .peelToKind

theorem findTreeId_ok
    {objects : Objects}
    {odb : Odb}
    {sha root : Sha}
    (found : findTreeId objects odb sha = .ok root) :
    sha ∈ odb ∧
      ∃ parents, objects.object? sha = some (.commit root parents) := by
  unfold findTreeId at found
  split at found
  · cases found
  next parents known =>
      cases found
      rcases findObject_ok.1 known with ⟨inside, commit⟩
      exact ⟨inside, parents, commit⟩
  · cases found

/-- Set the node of a name in a directory. -/
def insertNode
    (name : Text)
    (node : PathNode)
    (nodes : List (Text × PathNode)) : List (Text × PathNode) :=
  nodes.filter (fun other => other.1 ≠ name) ++ [(name, node)]

/-- A name that is UTF-8. -/
def TreeEntry.name (entry : TreeEntry) : Except PackchainError Text :=
  match entry.filename with
  | .ok name => .ok name
  | .error bytes => .error (.invalidPath bytes)

/-- One entry of a tree, with the walk of the trees below it. -/
def walkEntry
    (below : Sha → Except PackchainError (List (Text × PathNode)))
    (nodes : List (Text × PathNode))
    (entry : TreeEntry) :
    Except PackchainError (List (Text × PathNode)) := do
  let name ← entry.name
  match entry.kind with
  | .tree => do
      let subtree ← below entry.oid
      return insertNode name (.tree subtree) nodes
  | .blob => return insertNode name (.blob entry.oid) nodes
  | .blobExecutable => return insertNode name (.blob entry.oid) nodes
  | .link => return insertNode name (.blob entry.oid) nodes
  | .commit => return nodes

/--
The nodes of a tree.  The trees on the way down are distinct objects of the
database, so the bound is not reached.
-/
def walkTreeFrom
    (objects : Objects)
    (odb : Odb) :
    Nat → List Sha → Sha → Except PackchainError (List (Text × PathNode))
  | 0, _, tree => .error (.treeCycle tree)
  | bound + 1, ancestors, tree =>
      if tree ∈ ancestors then .error (.treeCycle tree)
      else
        match findTree objects odb tree with
        | .error error => .error (.git error)
        | .ok entries =>
            entries.foldlM
              (walkEntry
                (walkTreeFrom objects odb bound (tree :: ancestors)))
              []

/-- `walk_tree` -/
def walkTree
    (objects : Objects)
    (odb : Odb)
    (tree : Sha) : Except PackchainError (List (Text × PathNode)) :=
  walkTreeFrom objects odb (odb.card + 1) [] tree

/-- The blobs in a node of a path index. -/
inductive PathNode.Names : PathNode → Sha → Prop where
  | blob (sha : Sha) : Names (.blob sha) sha
  | tree
      {entries : List (Text × PathNode)}
      {name : Text}
      {node : PathNode}
      {sha : Sha}
      (member : (name, node) ∈ entries)
      (names : node.Names sha) :
      Names (.tree entries) sha

/-- What a fold in `Except` keeps. -/
theorem foldlM_keeps
    {ε α β : Type}
    {step : β → α → Except ε β}
    {keeps : β → Prop}
    {items : List α}
    (each :
      ∀ before item after,
        item ∈ items → step before item = .ok after → keeps before →
          keeps after)
    {start result : β}
    (folded : items.foldlM step start = .ok result)
    (holds : keeps start) :
    keeps result := by
  induction items generalizing start with
  | nil =>
      cases folded
      exact holds
  | cons item rest hypothesis =>
      rw [List.foldlM_cons] at folded
      cases stepped : step start item with
      | error error =>
          rw [stepped] at folded
          cases folded
      | ok next =>
          rw [stepped] at folded
          exact
            hypothesis
              (fun before other after member =>
                each before other after (List.mem_cons_of_mem _ member))
              folded
              (each start item next List.mem_cons_self stepped holds)

theorem names_insertNode
    {name : Text}
    {node : PathNode}
    {nodes : List (Text × PathNode)}
    {blobs : Set Sha}
    (inside :
      ∀ sha, (PathNode.tree nodes).Names sha → sha ∈ blobs)
    (fresh : ∀ sha, node.Names sha → sha ∈ blobs)
    (sha : Sha)
    (names : (PathNode.tree (insertNode name node nodes)).Names sha) :
    sha ∈ blobs := by
  rcases names with _ | ⟨member, names⟩
  rcases List.mem_append.1 member with earlier | last
  · exact inside sha (.tree (List.mem_of_mem_filter earlier) names)
  · rw [List.mem_singleton] at last
    cases last
    exact fresh sha names

/-- Every blob of a walk is reachable from the tree. -/
theorem walkTreeFrom_names
    {objects : Objects}
    {odb : Odb}
    {bound : Nat}
    {ancestors : List Sha}
    {tree : Sha}
    {nodes : List (Text × PathNode)}
    (walked : walkTreeFrom objects odb bound ancestors tree = .ok nodes)
    (sha : Sha)
    (names : (PathNode.tree nodes).Names sha) :
    sha ∈ objects.reach tree := by
  induction bound generalizing ancestors tree nodes sha with
  | zero => cases walked
  | succ bound hypothesis =>
      unfold walkTreeFrom at walked
      split at walked
      · cases walked
      split at walked
      · cases walked
      next entries found =>
      have linked
          {entry : TreeEntry}
          (member : entry ∈ entries)
          (kind : entry.kind ≠ .commit) :
          objects.reach entry.oid ⊆ objects.reach tree := by
        apply reach_subset_reach
        apply closed_reach tree tree (self_mem_reach tree)
        rcases EntryKind.exists_expected kind with ⟨expected, same⟩
        exact
          (Objects.mem_links_tree (findTree_ok found).2).2
            ⟨entry, member, expected, same, rfl⟩
      have kept :=
        @foldlM_keeps _ _ _ _
          (fun nodes =>
            ∀ sha, (PathNode.tree nodes).Names sha →
              sha ∈ objects.reach tree)
          entries ?_ _ _ walked ?_
      · exact kept sha names
      · intro before entry after member stepped inside
        unfold walkEntry at stepped
        cases named : entry.name with
        | error error =>
            rw [named] at stepped
            cases stepped
        | ok name =>
        rw [named] at stepped
        have blobbed
            (kind : entry.kind ≠ .commit)
            (same : after = insertNode name (.blob entry.oid) before) :
            ∀ sha, (PathNode.tree after).Names sha →
              sha ∈ objects.reach tree := by
          subst same
          apply names_insertNode inside
          rintro sha ⟨⟩
          exact linked member kind (self_mem_reach entry.oid)
        cases kind : entry.kind with
        | tree =>
            simp only [kind, Bind.bind, Except.bind] at stepped
            split at stepped
            · cases stepped
            next subtree below =>
                cases stepped
                apply names_insertNode inside
                intro sha within
                exact
                  linked member (by simp [kind])
                    (hypothesis below sha within)
        | blob =>
            simp only [kind, Bind.bind, Except.bind] at stepped
            cases stepped
            exact blobbed (by simp [kind]) rfl
        | blobExecutable =>
            simp only [kind, Bind.bind, Except.bind] at stepped
            cases stepped
            exact blobbed (by simp [kind]) rfl
        | link =>
            simp only [kind, Bind.bind, Except.bind] at stepped
            cases stepped
            exact blobbed (by simp [kind]) rfl
        | commit =>
            simp only [kind, Bind.bind, Except.bind] at stepped
            cases stepped
            exact inside
      · rintro sha (_ | ⟨member, -⟩)
        cases member

theorem walkTree_names
    {objects : Objects}
    {odb : Odb}
    {tree : Sha}
    {nodes : List (Text × PathNode)}
    (walked : walkTree objects odb tree = .ok nodes)
    {sha : Sha}
    (names : (PathNode.tree nodes).Names sha) :
    sha ∈ objects.reach tree :=
  walkTreeFrom_names walked sha names

/-! ## The closure of a tree -/

/-- Put a tree on the stack and list a blob, unless it is listed. -/
def listEntry
    (state : List Sha × List Sha)
    (entry : TreeEntry) : List Sha × List Sha :=
  match entry.kind.expected? with
  | some .tree => (entry.oid :: state.1, state.2)
  | some _ =>
      if entry.oid ∈ state.2 then state
      else (state.1, state.2 ++ [entry.oid])
  | none => state

theorem listEntry_grows
    (state : List Sha × List Sha)
    (entry : TreeEntry) :
    (∀ sha ∈ state.1, sha ∈ (listEntry state entry).1) ∧
      ∀ sha ∈ state.2, sha ∈ (listEntry state entry).2 := by
  unfold listEntry
  split
  · exact ⟨fun _ => List.mem_cons_of_mem _, fun _ => id⟩
  · split
    · exact ⟨fun _ => id, fun _ => id⟩
    · exact ⟨fun _ => id, fun _ => List.mem_append_left _⟩
  · exact ⟨fun _ => id, fun _ => id⟩

theorem foldl_listEntry_grows
    (entries : List TreeEntry)
    (state : List Sha × List Sha) :
    (∀ sha ∈ state.1, sha ∈ (entries.foldl listEntry state).1) ∧
      ∀ sha ∈ state.2, sha ∈ (entries.foldl listEntry state).2 := by
  induction entries generalizing state with
  | nil => exact ⟨fun _ => id, fun _ => id⟩
  | cons entry rest hypothesis =>
      have first := listEntry_grows state entry
      have later := hypothesis (listEntry state entry)
      exact
        ⟨fun sha inside => later.1 sha (first.1 sha inside),
          fun sha inside => later.2 sha (first.2 sha inside)⟩

/-- Every entry that names something is on the stack or listed. -/
theorem foldl_listEntry_covers
    (entries : List TreeEntry)
    (state : List Sha × List Sha)
    {entry : TreeEntry}
    (member : entry ∈ entries)
    {kind : ObjectKind}
    (expected : entry.kind.expected? = some kind) :
    (kind = .tree ∧
        entry.oid ∈ (entries.foldl listEntry state).1) ∨
      (kind ≠ .tree ∧
        entry.oid ∈ (entries.foldl listEntry state).2) := by
  induction entries generalizing state with
  | nil => cases member
  | cons first rest hypothesis =>
      rcases List.mem_cons.1 member with rfl | later
      · have grows :=
          foldl_listEntry_grows rest (listEntry state entry)
        by_cases tree : kind = .tree
        · left
          refine ⟨tree, grows.1 _ ?_⟩
          unfold listEntry
          rw [expected, tree]
          exact List.mem_cons_self
        · right
          refine ⟨tree, grows.2 _ ?_⟩
          unfold listEntry
          rw [expected]
          split
          next same =>
              cases same
              exact absurd rfl tree
          · split
            next listed => exact listed
            · exact List.mem_append_right _ List.mem_cons_self
          next none => cases none
      · exact hypothesis _ later

/-- Trees come onto the stack, and everything else is listed. -/
theorem foldl_listEntry_within
    (entries : List TreeEntry)
    (state : List Sha × List Sha)
    {stacked listed : Set Sha}
    (stack : ∀ sha ∈ state.1, sha ∈ stacked)
    (oids : ∀ sha ∈ state.2, sha ∈ listed)
    (trees :
      ∀ entry ∈ entries,
        entry.kind.expected? = some .tree → entry.oid ∈ stacked)
    (others :
      ∀ entry ∈ entries, ∀ kind,
        entry.kind.expected? = some kind → kind ≠ .tree →
          entry.oid ∈ listed) :
    (∀ sha ∈ (entries.foldl listEntry state).1, sha ∈ stacked) ∧
      ∀ sha ∈ (entries.foldl listEntry state).2, sha ∈ listed := by
  induction entries generalizing state with
  | nil => exact ⟨stack, oids⟩
  | cons entry rest hypothesis =>
      have next :
          (∀ sha ∈ (listEntry state entry).1, sha ∈ stacked) ∧
            ∀ sha ∈ (listEntry state entry).2, sha ∈ listed := by
        unfold listEntry
        split
        next same =>
            refine ⟨?_, oids⟩
            intro sha member
            rcases List.mem_cons.1 member with rfl | member
            · exact trees entry List.mem_cons_self same
            · exact stack sha member
        next kind notTree same =>
            split
            · exact ⟨stack, oids⟩
            · refine ⟨stack, ?_⟩
              intro sha member
              rcases List.mem_append.1 member with member | last
              · exact oids sha member
              · rw [List.mem_singleton.1 last]
                exact
                  others entry List.mem_cons_self kind same fun tree =>
                    notTree tree
        · exact ⟨stack, oids⟩
      exact
        hypothesis _ next.1 next.2
          (fun other member =>
            trees other (List.mem_cons_of_mem entry member))
          fun other member =>
            others other (List.mem_cons_of_mem entry member)

/-- The trees on the stack, and what has been listed so far. -/
def enumerateFrom
    (objects : Objects)
    (odb : Odb) :
    List Sha → List Sha → Except GitError (List Sha)
  | [], oids => .ok oids
  | current :: stack, oids =>
      if current ∈ oids then enumerateFrom objects odb stack oids
      else
        match _found : findTree objects odb current with
        | .error error => .error error
        | .ok entries =>
            let next :=
              entries.foldl listEntry (stack, oids ++ [current])
            enumerateFrom objects odb next.1 next.2
termination_by stack oids =>
  ((odb.filter fun sha => sha ∉ oids).card, stack.length)
decreasing_by
  · exact Prod.Lex.right _ (Nat.lt_succ_self _)
  · apply Prod.Lex.left
    apply Finset.card_lt_card
    have grows :=
      (foldl_listEntry_grows entries (stack, oids ++ [current])).2
    rw [Finset.ssubset_iff_of_subset]
    · refine ⟨current, ?_, ?_⟩
      · rw [Finset.mem_filter]
        exact ⟨(findTree_ok _found).1, by assumption⟩
      · rw [Finset.mem_filter]
        rintro ⟨-, absent⟩
        exact
          absent
            (grows _ (List.mem_append_right _ List.mem_cons_self))
    · intro sha member
      rw [Finset.mem_filter] at member ⊢
      refine ⟨member.1, fun listed => member.2 ?_⟩
      exact grows _ (List.mem_append_left _ listed)

/-- `enumerate_tree_closure` -/
def enumerateTreeClosure
    (objects : Objects)
    (odb : Odb)
    (tree : Sha) : Except GitError (List Sha) :=
  enumerateFrom objects odb [tree] []

/-- What an entry that is not of a tree names leads nowhere. -/
theorem Objects.links_of_entry
    {objects : Objects}
    {tree : Sha}
    {entries : List TreeEntry}
    (known : objects.object? tree = some (.tree entries))
    {entry : TreeEntry}
    (member : entry ∈ entries)
    {kind : ObjectKind}
    (expected : entry.kind.expected? = some kind)
    (other : kind ≠ .tree) :
    objects.links entry.oid = [] := by
  have blob : kind = .blob := by
    cases same : entry.kind with
    | tree =>
        rw [same] at expected
        cases expected
        exact absurd rfl other
    | commit =>
        rw [same] at expected
        cases expected
    | _ =>
        rw [same] at expected
        cases expected
        rfl
  subst blob
  unfold Objects.links
  cases found : objects.object? entry.oid with
  | none => rfl
  | some object =>
      have typed :=
        objects.typed tree _ known (entry.oid, .blob)
          (mem_expected_tree.2 ⟨entry, member, expected, rfl⟩)
          object found
      cases object with
      | blob content => rfl
      | _ => cases typed

/-- What is listed is closed but for what is on the stack. -/
structure Enumerating
    (objects : Objects)
    (tree : Sha)
    (stack oids : List Sha) : Prop where
  stacked : ∀ sha ∈ stack, sha ∈ objects.reach tree
  listed : ∀ sha ∈ oids, sha ∈ objects.reach tree
  linked :
    ∀ source ∈ oids, ∀ target ∈ objects.links source,
      target ∈ oids ∨ target ∈ stack
  start : tree ∈ oids ∨ tree ∈ stack

/-- Listing the entries of a tree on the stack. -/
theorem Enumerating.next
    {objects : Objects}
    {tree current : Sha}
    {stack oids : List Sha}
    (before : Enumerating objects tree (current :: stack) oids)
    {entries : List TreeEntry}
    (known : objects.object? current = some (.tree entries)) :
    Enumerating objects tree
      (entries.foldl listEntry (stack, oids ++ [current])).1
      (entries.foldl listEntry (stack, oids ++ [current])).2 := by
  have reached := before.stacked current List.mem_cons_self
  have links
      {sha : Sha} :
      sha ∈ objects.links current ↔
        ∃ entry ∈ entries, ∃ kind,
          entry.kind.expected? = some kind ∧ entry.oid = sha :=
    Objects.mem_links_tree known
  have target
      {entry : TreeEntry}
      (member : entry ∈ entries)
      {kind : ObjectKind}
      (expected : entry.kind.expected? = some kind) :
      entry.oid ∈ objects.reach tree := by
    apply closed_reach tree current reached
    exact links.2 ⟨entry, member, kind, expected, rfl⟩
  have oids' :
      ∀ sha ∈ oids ++ [current],
        sha ∈ objects.reach tree := by
    intro sha member
    rcases List.mem_append.1 member with member | last
    · exact before.listed sha member
    · rw [List.mem_singleton.1 last]
      exact reached
  have within :=
    foldl_listEntry_within entries (stack, oids ++ [current])
      (fun sha member =>
        before.stacked sha (List.mem_cons_of_mem _ member))
      oids' (fun entry member expected => target member expected)
      (fun entry member kind expected _ => target member expected)
  have grows :=
    foldl_listEntry_grows entries (stack, oids ++ [current])
  constructor
  case stacked => exact within.1
  case listed => exact within.2
  case start =>
      rcases before.start with listed | stacked
      · exact Or.inl (grows.2 _ (List.mem_append_left _ listed))
      · rcases List.mem_cons.1 stacked with rfl | stacked
        · left
          exact
            grows.2 _ (List.mem_append_right _ List.mem_cons_self)
        · exact Or.inr (grows.1 _ stacked)
  case linked =>
      have each :=
        (@foldl_listEntry_within entries (stack, oids ++ [current])
          Set.univ
          { source |
            ∀ target ∈ objects.links source,
              target ∈
                  (entries.foldl listEntry
                    (stack, oids ++ [current])).2 ∨
                target ∈
                  (entries.foldl listEntry
                    (stack, oids ++ [current])).1 }
          (fun _ _ => trivial) ?_ (fun _ _ _ => trivial) ?_).2
      · exact each
      · intro source member name linked
        rcases List.mem_append.1 member with member | last
        · rcases before.linked source member name linked with
            listed | stacked
          · exact
              Or.inl (grows.2 _ (List.mem_append_left _ listed))
          · rcases List.mem_cons.1 stacked with rfl | stacked
            · left
              exact
                grows.2 _
                  (List.mem_append_right _ List.mem_cons_self)
            · exact Or.inr (grows.1 _ stacked)
        · rw [List.mem_singleton.1 last] at linked
          rcases links.1 linked with
            ⟨entry, inEntries, kind, found, rfl⟩
          rcases
            foldl_listEntry_covers entries (stack, oids ++ [current])
              inEntries found with
            ⟨-, stacked⟩ | ⟨-, listed⟩
          · exact Or.inr stacked
          · exact Or.inl listed
      · intro entry member kind expected other name linked
        rw [Objects.links_of_entry known member expected other] at linked
        cases linked

theorem enumerateFrom_ok
    {objects : Objects}
    {odb : Odb}
    {tree : Sha}
    {stack oids listed : List Sha}
    (before : Enumerating objects tree stack oids)
    (enumerated : enumerateFrom objects odb stack oids = .ok listed) :
    Enumerating objects tree [] listed := by
  induction stack, oids using enumerateFrom.induct objects odb with
  | case1 oids =>
      rw [enumerateFrom] at enumerated
      cases enumerated
      exact before
  | case2 oids current stack known hypothesis =>
      rw [enumerateFrom, if_pos known] at enumerated
      refine hypothesis ?_ enumerated
      constructor
      case stacked =>
          exact fun sha member =>
            before.stacked sha (List.mem_cons_of_mem _ member)
      case listed => exact before.listed
      case linked =>
          intro source member target linked
          rcases before.linked source member target linked with
            inOids | onStack
          · exact Or.inl inOids
          · rcases List.mem_cons.1 onStack with rfl | onStack
            · exact Or.inl known
            · exact Or.inr onStack
      case start =>
          rcases before.start with inOids | onStack
          · exact Or.inl inOids
          · rcases List.mem_cons.1 onStack with rfl | onStack
            · exact Or.inl known
            · exact Or.inr onStack
  | case3 oids current stack fresh error failed =>
      rw [enumerateFrom, if_neg fresh] at enumerated
      split at enumerated
      · cases enumerated
      next entries found =>
          rw [failed] at found
          cases found
  | case4 oids current stack fresh entries found next hypothesis =>
      rw [enumerateFrom, if_neg fresh] at enumerated
      split at enumerated
      next error failed =>
          rw [found] at failed
          cases failed
      next others again =>
          rw [found] at again
          cases again
          exact
            hypothesis (before.next (findTree_ok found).2) enumerated

/-- The listed closure of a tree is what the tree reaches. -/
theorem enumerateTreeClosure_ok
    {objects : Objects}
    {odb : Odb}
    {tree : Sha}
    {oids : List Sha}
    (enumerated : enumerateTreeClosure objects odb tree = .ok oids)
    (sha : Sha) :
    sha ∈ oids ↔ sha ∈ objects.reach tree := by
  have started : Enumerating objects tree [tree] [] := by
    constructor
    case stacked =>
        intro other member
        rw [List.mem_singleton.1 member]
        exact self_mem_reach tree
    case listed => exact fun _ member => by cases member
    case linked => exact fun _ member => by cases member
    case start => exact Or.inr List.mem_cons_self
  have ended := enumerateFrom_ok started enumerated
  have closed : Closed objects.links { sha | sha ∈ oids } := by
    intro source member target linked
    rcases ended.linked source member target linked with
      inOids | onStack
    · exact inOids
    · cases onStack
  constructor
  · exact ended.listed sha
  · apply closed.reach_subset
    rcases ended.start with inOids | onStack
    · exact inOids
    · cases onStack

end GitRemoteObjectStore
