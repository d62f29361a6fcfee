import GitRemoteObjectStore.PackBuild

/-!
# Walking trees that may lead back to themselves

A tree names other trees, and in a damaged database one may name itself or a
tree it is in.  The walk into a path index keeps the trees it is inside of,
and the listing of a closure keeps everything it has seen.  Both come to an
end in every database, and only the first one reports a loop.
-/

namespace GitRemoteObjectStore

open Closure

/-! ## Every walk ends -/

section Walking

variable (objects : Objects) (odb : Odb)

/--
The calls `walk_tree` makes, without a bound: a walk with a result is one
whose calls come to an end.
-/
inductive Walks :
    List Sha → Sha → Except PackchainError (List (Text × PathNode)) → Prop
  | again
      {ancestors : List Sha}
      {tree : Sha}
      (inside : tree ∈ ancestors) :
      Walks ancestors tree (.error (.treeCycle tree))
  | unreadable
      {ancestors : List Sha}
      {tree : Sha}
      {error : GitError}
      (outside : tree ∉ ancestors)
      (failed : findTree objects odb tree = .error error) :
      Walks ancestors tree (.error (.git error))
  | entries
      {ancestors : List Sha}
      {tree : Sha}
      {entries : List TreeEntry}
      {below : Sha → Except PackchainError (List (Text × PathNode))}
      (outside : tree ∉ ancestors)
      (found : findTree objects odb tree = .ok entries)
      (each :
        ∀ entry ∈ entries,
          entry.kind = .tree →
            Walks (tree :: ancestors) entry.oid (below entry.oid)) :
      Walks ancestors tree (entries.foldlM (walkEntry below) [])

end Walking

/-- The trees a walk is inside of are distinct and in the database. -/
structure Descending
    (odb : Odb)
    (ancestors : List Sha) : Prop where
  nodup : ancestors.Nodup
  present : ∀ tree ∈ ancestors, tree ∈ odb

theorem Descending.length_le
    {odb : Odb}
    {ancestors : List Sha}
    (descending : Descending odb ancestors) :
    ancestors.length ≤ odb.card := by
  rw [← List.toFinset_card_of_nodup descending.nodup]
  apply Finset.card_le_card
  intro tree member
  exact descending.present tree (List.mem_toFinset.1 member)

theorem Descending.cons
    {odb : Odb}
    {ancestors : List Sha}
    (descending : Descending odb ancestors)
    {tree : Sha}
    (outside : tree ∉ ancestors)
    (present : tree ∈ odb) :
    Descending odb (tree :: ancestors) where
  nodup := List.nodup_cons.2 ⟨outside, descending.nodup⟩
  present := by
    intro other member
    rcases List.mem_cons.1 member with rfl | earlier
    · exact present
    · exact descending.present other earlier

/-- A bound above the trees left to enter is not reached. -/
theorem walks_walkTreeFrom
    {objects : Objects}
    {odb : Odb}
    {bound : Nat}
    {ancestors : List Sha}
    (descending : Descending odb ancestors)
    (enough : odb.card < bound + ancestors.length)
    (tree : Sha) :
    Walks objects odb ancestors tree
      (walkTreeFrom objects odb bound ancestors tree) := by
  induction bound generalizing ancestors tree with
  | zero =>
      have := descending.length_le
      omega
  | succ bound hypothesis =>
      rw [walkTreeFrom]
      split
      next inside => exact .again inside
      next outside =>
          split
          next error failed => exact .unreadable outside failed
          next entries found =>
              apply Walks.entries outside found
              intro entry member directory
              apply hypothesis
              · exact descending.cons outside (findTree_ok found).1
              · rw [List.length_cons]
                omega

/-- `walk_tree` ends, with the result of the model, in every database. -/
theorem walks_walkTree
    (objects : Objects)
    (odb : Odb)
    (tree : Sha) :
    Walks objects odb [] tree (walkTree objects odb tree) := by
  apply walks_walkTreeFrom
  · exact ⟨List.nodup_nil, fun _ member => by cases member⟩
  · rw [List.length_nil]
    omega

/-! ## What a walk says about the entries of a tree -/

/-- The node a walk keeps for an entry. -/
inductive Recorded
    (below : Sha → Except PackchainError (List (Text × PathNode)))
    (entry : TreeEntry) : PathNode → Prop
  | tree
      {children : List (Text × PathNode)}
      (directory : entry.kind = .tree)
      (walked : below entry.oid = .ok children) :
      Recorded below entry (.tree children)
  | blob
      (file : entry.kind.expected? = some .blob) :
      Recorded below entry (.blob entry.oid)

/-- An entry is skipped when it is a submodule, and recorded otherwise. -/
theorem walkEntry_ok
    {below : Sha → Except PackchainError (List (Text × PathNode))}
    {before after : List (Text × PathNode)}
    {entry : TreeEntry}
    (stepped : walkEntry below before entry = .ok after) :
    ∃ name,
      entry.filename = .ok name ∧
        ((entry.kind = .commit ∧ after = before) ∨
          ∃ node,
            Recorded below entry node ∧
              after = insertNode name node before) := by
  rw [walkEntry, TreeEntry.name] at stepped
  cases named : entry.filename with
  | error bytes =>
      rw [named] at stepped
      cases stepped
  | ok name =>
      rw [named] at stepped
      refine ⟨name, rfl, ?_⟩
      cases kind : entry.kind with
      | tree =>
          simp only [kind, Bind.bind, Except.bind] at stepped
          split at stepped
          · cases stepped
          next children walked =>
              cases stepped
              exact Or.inr ⟨_, .tree kind walked, rfl⟩
      | commit =>
          simp only [kind, Bind.bind, Except.bind] at stepped
          cases stepped
          exact Or.inl ⟨rfl, rfl⟩
      | _ =>
          simp only [kind, Bind.bind, Except.bind] at stepped
          cases stepped
          exact Or.inr ⟨_, .blob (by rw [kind]; rfl), rfl⟩

/-- An entry fails for its name, or for the walk below it. -/
theorem walkEntry_error
    {below : Sha → Except PackchainError (List (Text × PathNode))}
    {before : List (Text × PathNode)}
    {entry : TreeEntry}
    {error : PackchainError}
    (stepped : walkEntry below before entry = .error error) :
    (∃ bytes,
        entry.filename = .error bytes ∧ error = .invalidPath bytes) ∨
      entry.kind = .tree ∧ below entry.oid = .error error := by
  rw [walkEntry, TreeEntry.name] at stepped
  cases named : entry.filename with
  | error bytes =>
      rw [named] at stepped
      cases stepped
      exact Or.inl ⟨bytes, rfl, rfl⟩
  | ok name =>
      rw [named] at stepped
      cases kind : entry.kind with
      | tree =>
          simp only [kind, Bind.bind, Except.bind] at stepped
          split at stepped
          next failed =>
              cases stepped
              exact Or.inr ⟨rfl, failed⟩
          · cases stepped
      | _ =>
          simp only [kind, Bind.bind, Except.bind] at stepped
          cases stepped

theorem foldlM_walkEntry_ok
    {below : Sha → Except PackchainError (List (Text × PathNode))}
    {entries : List TreeEntry}
    {before after : List (Text × PathNode)}
    (walked : entries.foldlM (walkEntry below) before = .ok after)
    {entry : TreeEntry}
    (member : entry ∈ entries)
    (directory : entry.kind = .tree) :
    ∃ children, below entry.oid = .ok children := by
  induction entries generalizing before with
  | nil => cases member
  | cons first rest hypothesis =>
      rw [List.foldlM_cons] at walked
      cases stepped : walkEntry below before first with
      | error error =>
          rw [stepped] at walked
          cases walked
      | ok next =>
          rw [stepped] at walked
          rcases List.mem_cons.1 member with rfl | later
          · rcases walkEntry_ok stepped with
              ⟨name, -, ⟨submodule, -⟩ | ⟨node, recorded, -⟩⟩
            · rw [directory] at submodule
              cases submodule
            · cases recorded with
              | tree _ children => exact ⟨_, children⟩
              | blob file =>
                  rw [directory] at file
                  cases file
          · exact hypothesis walked later

theorem foldlM_walkEntry_error
    {below : Sha → Except PackchainError (List (Text × PathNode))}
    {entries : List TreeEntry}
    {before : List (Text × PathNode)}
    {error : PackchainError}
    (walked : entries.foldlM (walkEntry below) before = .error error) :
    ∃ entry ∈ entries,
      (∃ bytes,
          entry.filename = .error bytes ∧ error = .invalidPath bytes) ∨
        entry.kind = .tree ∧ below entry.oid = .error error := by
  induction entries generalizing before with
  | nil => cases walked
  | cons first rest hypothesis =>
      rw [List.foldlM_cons] at walked
      cases stepped : walkEntry below before first with
      | error other =>
          rw [stepped] at walked
          cases walked
          exact ⟨first, List.mem_cons_self, walkEntry_error stepped⟩
      | ok next =>
          rw [stepped] at walked
          rcases hypothesis walked with ⟨entry, member, failed⟩
          exact ⟨entry, List.mem_cons_of_mem first member, failed⟩

/-! ## Loops are what a walk reports -/

/-- The calls of a walk that succeeds. -/
theorem Walks.ok_inv
    {objects : Objects}
    {odb : Odb}
    {ancestors : List Sha}
    {tree : Sha}
    {nodes : List (Text × PathNode)}
    (walks : Walks objects odb ancestors tree (.ok nodes)) :
    ∃ entries below,
      objects.object? tree = some (.tree entries) ∧
        entries.foldlM (walkEntry below) [] = .ok nodes ∧
        ∀ entry ∈ entries,
          entry.kind = .tree →
            Walks objects odb (tree :: ancestors) entry.oid
              (below entry.oid) := by
  generalize same : Except.ok nodes = result at walks
  cases walks with
  | again _ => cases same
  | unreadable _ _ => cases same
  | @entries _ _ entries below _ found each =>
      exact ⟨entries, below, (findTree_ok found).2, rfl, each⟩

/-- A walk that succeeds has been everywhere below its tree. -/
theorem Walks.acc
    {objects : Objects}
    {odb : Odb}
    {ancestors : List Sha}
    {tree : Sha}
    {nodes : List (Text × PathNode)}
    (walks : Walks objects odb ancestors tree (.ok nodes)) :
    Acc (fun target source => target ∈ objects.links source) tree := by
  generalize same : Except.ok nodes = result at walks
  induction walks generalizing nodes with
  | again _ => cases same
  | unreadable _ _ => cases same
  | @entries ancestors tree entries below _ found each hypothesis =>
      have known := (findTree_ok found).2
      constructor
      intro target linked
      rcases (Objects.mem_links_tree known).1 linked with
        ⟨entry, member, kind, expected, rfl⟩
      by_cases directory : entry.kind = .tree
      · rcases foldlM_walkEntry_ok same.symm member directory with
          ⟨children, walked⟩
        exact hypothesis entry member directory walked.symm
      · have other : kind ≠ .tree := by
          rintro rfl
          cases same : entry.kind with
          | tree => exact directory same
          | _ =>
              rw [same] at expected
              cases expected
        constructor
        intro further inside
        rw [Objects.links_of_entry known member expected other] at inside
        cases inside

/-- A reported cycle is there. -/
theorem Walks.loops
    {objects : Objects}
    {odb : Odb}
    {ancestors : List Sha}
    {tree culprit : Sha}
    (walks :
      Walks objects odb ancestors tree (.error (.treeCycle culprit)))
    (above :
      ∀ ancestor ∈ ancestors,
        Relation.TransGen
          (fun source target => target ∈ objects.links source)
          ancestor tree) :
    ∃ node ∈ objects.reach tree, Loops objects.links node := by
  generalize same :
    Except.error (PackchainError.treeCycle culprit) = result at walks
  induction walks with
  | again inside =>
      exact ⟨_, self_mem_reach _, above _ inside⟩
  | unreadable _ _ => cases same
  | @entries ancestors tree entries below _ found each hypothesis =>
      rcases foldlM_walkEntry_error same.symm with
        ⟨entry, member, ⟨bytes, -, other⟩ | ⟨directory, failed⟩⟩
      · cases other
      have linked : entry.oid ∈ objects.links tree :=
        (Objects.mem_links_tree (findTree_ok found).2).2
          ⟨entry, member, .tree, by rw [directory]; rfl, rfl⟩
      have above' :
          ∀ ancestor ∈ tree :: ancestors,
            Relation.TransGen
              (fun source target => target ∈ objects.links source)
              ancestor entry.oid := by
        intro ancestor inside
        rcases List.mem_cons.1 inside with rfl | earlier
        · exact .single linked
        · exact (above ancestor earlier).tail linked
      rcases hypothesis entry member directory above' failed.symm with
        ⟨node, reached, loops⟩
      exact
        ⟨node, closed_reach _ |>.reach_subset
          (closed_reach tree tree (self_mem_reach tree) _ linked) reached,
          loops⟩

/-- A tree with everything below it present, and names that are UTF-8. -/
structure WholeTree
    (objects : Objects)
    (odb : Odb)
    (root : Sha) : Prop where
  isTree : ∃ entries, objects.object? root = some (.tree entries)
  present :
    ∀ sha ∈ objects.reach root,
      ∃ object, findObject objects odb sha = .ok object
  named :
    ∀ tree ∈ objects.reach root,
      ∀ entries,
        objects.object? tree = some (.tree entries) →
          ∀ entry ∈ entries, ∃ name, entry.filename = .ok name

namespace WholeTree

variable {objects : Objects} {odb : Odb} {root : Sha}

theorem findTree_eq
    (whole : WholeTree objects odb root)
    {entries : List TreeEntry}
    (known : objects.object? root = some (.tree entries)) :
    findTree objects odb root = .ok entries := by
  rcases whole.present root (self_mem_reach root) with ⟨object, found⟩
  have same := (findObject_ok.1 found).2
  rw [known] at same
  cases same
  rw [findTree, found]

/-- The trees a whole tree names are whole. -/
theorem below
    (whole : WholeTree objects odb root)
    {entries : List TreeEntry}
    (known : objects.object? root = some (.tree entries))
    {entry : TreeEntry}
    (member : entry ∈ entries)
    (directory : entry.kind = .tree) :
    WholeTree objects odb entry.oid := by
  have expected : entry.kind.expected? = some .tree := by
    rw [directory]
    rfl
  have linked : entry.oid ∈ objects.reach root := by
    apply closed_reach root root (self_mem_reach root)
    exact
      (Objects.mem_links_tree known).2
        ⟨entry, member, .tree, expected, rfl⟩
  have within := reach_subset_reach linked
  constructor
  case isTree =>
      rcases whole.present entry.oid linked with ⟨object, found⟩
      have same := (findObject_ok.1 found).2
      have typed :=
        objects.typed root _ known (entry.oid, .tree)
          (mem_expected_tree.2 ⟨entry, member, expected, rfl⟩) object same
      cases object with
      | tree children => exact ⟨children, same⟩
      | _ => cases typed
  case present => exact fun sha reached => whole.present sha (within reached)
  case named => exact fun tree reached => whole.named tree (within reached)

/-- Nothing but a cycle stops the walk of a whole tree. -/
theorem error_eq
    (whole : WholeTree objects odb root)
    {ancestors : List Sha}
    {error : PackchainError}
    (walks : Walks objects odb ancestors root (.error error)) :
    ∃ culprit, error = .treeCycle culprit := by
  generalize same : Except.error error = result at walks
  induction walks with
  | again _ =>
      cases same
      exact ⟨_, rfl⟩
  | unreadable _ failed =>
      rcases whole.isTree with ⟨entries, known⟩
      rw [whole.findTree_eq known] at failed
      cases failed
  | @entries ancestors tree entries below _ found each hypothesis =>
      have known := (findTree_ok found).2
      rcases foldlM_walkEntry_error same.symm with
        ⟨entry, member, ⟨bytes, unnamed, -⟩ | ⟨directory, failed⟩⟩
      · rcases whole.named tree (self_mem_reach tree) entries known entry
          member with ⟨name, named⟩
        rw [unnamed] at named
        cases named
      · exact
          hypothesis entry member directory
            (whole.below known member directory) failed.symm

/-- The walk of a whole tree succeeds unless a cycle is below it. -/
theorem walkTree_cases (whole : WholeTree objects odb root) :
    (∃ nodes,
        walkTree objects odb root = .ok nodes ∧
          ∀ node ∈ objects.reach root, ¬ Loops objects.links node) ∨
      ∃ culprit,
        walkTree objects odb root = .error (.treeCycle culprit) ∧
          ∃ node ∈ objects.reach root, Loops objects.links node := by
  have walks := walks_walkTree objects odb root
  cases result : walkTree objects odb root with
  | ok nodes =>
      rw [result] at walks
      exact
        Or.inl
          ⟨nodes, rfl, fun node reached => not_loops_of_acc walks.acc reached⟩
  | error error =>
      rw [result] at walks
      rcases whole.error_eq walks with ⟨culprit, rfl⟩
      exact
        Or.inr
          ⟨culprit, rfl, walks.loops fun _ member => by cases member⟩

end WholeTree

/-! ## Every object once -/

theorem nodup_listEntry
    {state : List Sha × List Sha}
    (nodup : state.2.Nodup)
    (entry : TreeEntry) :
    (listEntry state entry).2.Nodup := by
  unfold listEntry
  split
  · exact nodup
  · split
    · exact nodup
    next fresh =>
        rw [List.nodup_append]
        refine ⟨nodup, List.nodup_singleton _, ?_⟩
        rintro sha listed _ last rfl
        rw [List.mem_singleton.1 last] at listed
        exact fresh listed
  · exact nodup

theorem nodup_foldl_listEntry
    (entries : List TreeEntry)
    {state : List Sha × List Sha}
    (nodup : state.2.Nodup) :
    (entries.foldl listEntry state).2.Nodup := by
  induction entries generalizing state with
  | nil => exact nodup
  | cons entry rest hypothesis =>
      exact hypothesis (nodup_listEntry nodup entry)

/-- The closure of whole trees is listed, everything once. -/
theorem enumerateFrom_whole
    {objects : Objects}
    {odb : Odb}
    {stack oids : List Sha}
    (whole : ∀ tree ∈ stack, WholeTree objects odb tree)
    (nodup : oids.Nodup) :
    ∃ listed,
      enumerateFrom objects odb stack oids = .ok listed ∧
        listed.Nodup := by
  induction stack, oids using enumerateFrom.induct objects odb with
  | case1 oids =>
      rw [enumerateFrom]
      exact ⟨oids, rfl, nodup⟩
  | case2 current stack oids known hypothesis =>
      rw [enumerateFrom, if_pos known]
      exact
        hypothesis
          (fun tree member => whole tree (List.mem_cons_of_mem _ member))
          nodup
  | case3 current stack oids fresh error failed =>
      have here := whole _ List.mem_cons_self
      rcases here.isTree with ⟨entries, known⟩
      rw [here.findTree_eq known] at failed
      cases failed
  | case4 current stack oids fresh entries found next hypothesis =>
      have known := (findTree_ok found).2
      have here := whole _ List.mem_cons_self
      rw [enumerateFrom, if_neg fresh]
      split
      next error failed =>
          rw [found] at failed
          cases failed
      next others again =>
          rw [found] at again
          cases again
          apply hypothesis
          · refine
              (@foldl_listEntry_within entries (stack, oids ++ [current])
                { tree | WholeTree objects odb tree } Set.univ
                (fun tree member =>
                  whole tree (List.mem_cons_of_mem _ member))
                (fun _ _ => trivial) ?_ fun _ _ _ _ _ => trivial).1
            intro entry member expected
            apply here.below known member
            cases kind : entry.kind with
            | tree => rfl
            | _ =>
                rw [kind] at expected
                cases expected
          · apply nodup_foldl_listEntry
            rw [List.nodup_append]
            refine ⟨nodup, List.nodup_singleton _, ?_⟩
            rintro sha listed _ last rfl
            rw [List.mem_singleton.1 last] at listed
            exact fresh listed

/-! ## Where the repository walks -/

/-- A local repository whose walks are over a database. -/
structure WalksOver
    (repo : LocalRepo)
    (objects : Objects)
    (odb : Odb) : Prop where
  treeId : ∀ commit, repo.treeId commit = findTreeId objects odb commit
  walks : ∀ tree, repo.walkTree tree = walkTree objects odb tree

theorem RepoOver.walksOver
    {repo : LocalRepo}
    {packer : Packer}
    {objects : Objects}
    {contents : Contents}
    {odb : Odb}
    (backed : RepoOver repo packer objects contents odb) :
    WalksOver repo objects odb :=
  ⟨backed.treeId, backed.walks⟩

/-- The tree a path index is of. -/
inductive PeeledTip.Roots
    (objects : Objects)
    (odb : Odb) : PeeledTip → Sha → Prop
  | commit
      {commit root : Sha}
      {tagChain : List Sha}
      (found : findTreeId objects odb commit = .ok root) :
      Roots objects odb (.commit commit tagChain) root
  | tree
      (root : Sha)
      (tagChain : List Sha) :
      Roots objects odb (.tree root tagChain) root

theorem WalksOver.extractPathIndex_eq
    {repo : LocalRepo}
    {objects : Objects}
    {odb : Odb}
    (walking : WalksOver repo objects odb)
    {peeled : PeeledTip}
    {root : Sha}
    (roots : peeled.Roots objects odb root)
    (unpeeledTip : Sha) :
    repo.extractPathIndex peeled unpeeledTip =
      (walkTree objects odb root).map fun nodes =>
        some ⟨PathIndex.schemaVersion, unpeeledTip, nodes⟩ := by
  cases roots with
  | commit found =>
      simp only [LocalRepo.extractPathIndex, walking.treeId, found,
        walking.walks]
      cases walkTree objects odb root <;> rfl
  | tree =>
      simp only [LocalRepo.extractPathIndex, walking.walks]
      cases walkTree objects odb root <;> rfl

/--
Both walks of a whole tree come to an end.  The one into a path index reports
a cycle exactly when one is below the root, and the listing of the closure
has everything below the root once.
-/
theorem tree_walks_end
    {repo : LocalRepo}
    {objects : Objects}
    {odb : Odb}
    (walking : WalksOver repo objects odb)
    {peeled : PeeledTip}
    {root : Sha}
    (roots : peeled.Roots objects odb root)
    (whole : WholeTree objects odb root)
    (unpeeledTip : Sha) :
    Walks objects odb [] root (walkTree objects odb root) ∧
      ((∃ culprit,
          repo.extractPathIndex peeled unpeeledTip =
            .error (.treeCycle culprit)) ↔
        ∃ tree ∈ objects.reach root, Loops objects.links tree) ∧
      ∃ oids,
        enumerateTreeClosure objects odb root = .ok oids ∧
          oids.Nodup ∧
          ∀ sha, sha ∈ oids ↔ sha ∈ objects.reach root := by
  refine ⟨walks_walkTree objects odb root, ?_, ?_⟩
  · rw [walking.extractPathIndex_eq roots]
    rcases whole.walkTree_cases with
      ⟨nodes, walked, acyclic⟩ | ⟨culprit, walked, cyclic⟩
    · rw [walked]
      constructor
      · rintro ⟨culprit, impossible⟩
        cases impossible
      · rintro ⟨tree, reached, loops⟩
        exact absurd loops (acyclic tree reached)
    · rw [walked]
      exact ⟨fun _ => cyclic, fun _ => ⟨culprit, rfl⟩⟩
  · have stacked : ∀ tree ∈ [root], WholeTree objects odb tree := by
      intro tree member
      rw [List.mem_singleton.1 member]
      exact whole
    rcases enumerateFrom_whole stacked List.nodup_nil with
      ⟨oids, enumerated, nodup⟩
    exact
      ⟨oids, enumerated, nodup, enumerateTreeClosure_ok enumerated⟩

/-! ## A shared tree, and a tree below itself -/

/--
The trees `1` and `2` share the tree `3`.  The tree `2` is below itself, by way
of the tree `a`; it is below the tree `0`, and not below the tree `d`.
-/
def loopedTable : List (Sha × GitObject) :=
  [(digitSha '0' hex_0,
      .tree
        [⟨.tree, .ok ['a'], digitSha '1' hex_1⟩,
          ⟨.tree, .ok ['b'], digitSha '2' hex_2⟩,
          ⟨.commit, .ok ['m'], digitSha 'c' hex_c⟩]),
    (digitSha '1' hex_1,
      .tree
        [⟨.blob, .ok ['f'], digitSha 'b' hex_b⟩,
          ⟨.tree, .ok ['s'], digitSha '3' hex_3⟩]),
    (digitSha '2' hex_2,
      .tree
        [⟨.tree, .ok ['s'], digitSha '3' hex_3⟩,
          ⟨.tree, .ok ['z'], digitSha 'a' hex_a⟩]),
    (digitSha '3' hex_3,
      .tree [⟨.blobExecutable, .ok ['x'], digitSha 'b' hex_b⟩]),
    (digitSha 'a' hex_a, .tree [⟨.tree, .ok ['u'], digitSha '2' hex_2⟩]),
    (digitSha 'b' hex_b, .blob []),
    (digitSha 'd' hex_d,
      .tree
        [⟨.tree, .ok ['a'], digitSha '1' hex_1⟩,
          ⟨.commit, .ok ['m'], digitSha 'c' hex_c⟩,
          ⟨.tree, .ok ['s'], digitSha '3' hex_3⟩])]

def loopedObjects : Objects :=
  .ofTable loopedTable (by decide +kernel)

/-- What is below the tree `0`, which the submodule is not. -/
def belowLooped : List Sha :=
  [digitSha '0' hex_0, digitSha '1' hex_1, digitSha 'b' hex_b,
    digitSha '3' hex_3, digitSha '2' hex_2, digitSha 'a' hex_a]

def loopedOdb : Odb :=
  (digitSha 'd' hex_d :: belowLooped).toFinset

def loopedRepo : LocalRepo :=
  checkedRepo loopedObjects 4 loopedOdb

theorem mem_reach_looped
    {sha : Sha} :
    sha ∈ loopedObjects.reach (digitSha '0' hex_0) ↔ sha ∈ belowLooped := by
  have listed :
      listing? loopedObjects.links 20 (digitSha '0' hex_0) =
        some belowLooped := by
    decide +kernel
  exact (mem_listing?_iff listed sha).symm

/-- The entries of a tree. -/
def GitObject.entries : GitObject → List TreeEntry
  | .tree entries => entries
  | _ => []

theorem whole_looped
    {root : Sha}
    (inside : root ∈ digitSha 'd' hex_d :: belowLooped)
    (isTree : ∃ entries, loopedObjects.object? root = some (.tree entries)) :
    WholeTree loopedObjects loopedOdb root := by
  have closed :
      isClosed loopedObjects.links (digitSha 'd' hex_d :: belowLooped) =
        true := by
    decide +kernel
  have within := (closed_of_isClosed closed).reach_subset inside
  constructor
  case isTree => exact isTree
  case present =>
      intro sha reached
      have known :
          ∀ sha ∈ digitSha 'd' hex_d :: belowLooped,
            (loopedObjects.object? sha).isSome = true := by
        decide +kernel
      rcases Option.isSome_iff_exists.1 (known sha (within reached)) with
        ⟨object, found⟩
      have stored : sha ∈ loopedOdb := List.mem_toFinset.2 (within reached)
      exact ⟨object, findObject_ok.2 ⟨stored, found⟩⟩
  case named =>
      intro tree _ entries known entry member
      have named :
          ∀ listed ∈ loopedTable, ∀ entry ∈ listed.2.entries,
            entry.filename.toOption.isSome = true := by
        decide +kernel
      rcases List.lookup_eq_some_iff.1 known with ⟨front, back, same, -⟩
      have filed :=
        named (tree, .tree entries) (by rw [same]; simp) entry member
      cases filename : entry.filename with
      | error bytes =>
          rw [filename] at filed
          cases filed
      | ok name => exact ⟨name, rfl⟩

theorem links_looped :
    loopedObjects.links (digitSha 'b' hex_b) = [] ∧
      loopedObjects.links (digitSha '3' hex_3) = [digitSha 'b' hex_b] ∧
      loopedObjects.links (digitSha '1' hex_1) =
        [digitSha 'b' hex_b, digitSha '3' hex_3] ∧
      loopedObjects.links (digitSha 'd' hex_d) =
        [digitSha '1' hex_1, digitSha '3' hex_3] ∧
      loopedObjects.links (digitSha '2' hex_2) =
        [digitSha '3' hex_3, digitSha 'a' hex_a] ∧
      loopedObjects.links (digitSha 'a' hex_a) =
        [digitSha '2' hex_2] := by
  decide +kernel

theorem loops_looped :
    Loops loopedObjects.links (digitSha '2' hex_2) := by
  rcases links_looped with ⟨-, -, -, -, second, back⟩
  have down : digitSha 'a' hex_a ∈ loopedObjects.links (digitSha '2' hex_2) := by
    rw [second]
    simp
  have up : digitSha '2' hex_2 ∈ loopedObjects.links (digitSha 'a' hex_a) := by
    rw [back]
    simp
  exact .tail (.single down) up

/-- Below the tree `d` every way down ends. -/
theorem acc_looped :
    Acc (fun target source => target ∈ loopedObjects.links source)
      (digitSha 'd' hex_d) := by
  rcases links_looped with ⟨blob, shared, first, root, -, -⟩
  have grounded
      {sha : Sha}
      {targets : List Sha}
      (links : loopedObjects.links sha = targets)
      (each :
        ∀ target ∈ targets,
          Acc (fun target source => target ∈ loopedObjects.links source)
            target) :
      Acc (fun target source => target ∈ loopedObjects.links source)
        sha := by
    constructor
    intro target linked
    rw [links] at linked
    exact each target linked
  have accBlob := grounded blob (by simp)
  have accShared := grounded shared (by simp [accBlob])
  have accFirst := grounded first (by simp [accBlob, accShared])
  exact grounded root (by simp [accFirst, accShared])

/--
The walk of a tree with a tree below itself ends, and reports the cycle; a
tree that is only shared is none, and is listed once.
-/
theorem tree_walks_end_looped :
    (∃ culprit,
      loopedRepo.extractPathIndex (.tree (digitSha '0' hex_0) [])
          (digitSha '0' hex_0) =
        .error (.treeCycle culprit)) ∧
      (¬ ∃ culprit,
        loopedRepo.extractPathIndex (.tree (digitSha 'd' hex_d) [])
            (digitSha 'd' hex_d) =
          .error (.treeCycle culprit)) ∧
      ∃ oids,
        enumerateTreeClosure loopedObjects loopedOdb
            (digitSha '0' hex_0) =
          .ok oids ∧
          oids.Nodup ∧ ∀ sha, sha ∈ oids ↔ sha ∈ belowLooped := by
  have walking := (over_checked loopedObjects 4 loopedOdb).walksOver
  have cyclic :=
    tree_walks_end walking (.tree (digitSha '0' hex_0) [])
      (whole_looped (by simp [belowLooped]) ⟨_, rfl⟩) (digitSha '0' hex_0)
  have acyclic :=
    tree_walks_end walking (.tree (digitSha 'd' hex_d) [])
      (whole_looped List.mem_cons_self ⟨_, rfl⟩) (digitSha 'd' hex_d)
  constructor
  · apply cyclic.2.1.2
    refine ⟨digitSha '2' hex_2, mem_reach_looped.2 ?_, loops_looped⟩
    simp [belowLooped]
  constructor
  · intro reported
    rcases acyclic.2.1.1 reported with ⟨tree, reached, loops⟩
    exact not_loops_of_acc acc_looped reached loops
  · rcases cyclic.2.2 with ⟨oids, enumerated, nodup, listed⟩
    refine ⟨oids, enumerated, nodup, fun sha => ?_⟩
    rw [listed, mem_reach_looped]

end GitRemoteObjectStore
