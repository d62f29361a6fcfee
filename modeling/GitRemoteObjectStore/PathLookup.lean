import GitRemoteObjectStore.Read
import GitRemoteObjectStore.TreeWalks

/-!
# Looking paths up

A path names an entry of a tree by the names of the directories on the way.
The index of a tree is written as nested nodes and read component by
component; what is found in it is what the path names in the tree.
-/

namespace GitRemoteObjectStore.Read

open Closure

/-! ## Paths that are refused -/

/-- A path with no segments of its own, or with a segment git never writes. -/
def Malformed (path : Text) : Prop :=
  path = [] ∨
    path.head? = some '/' ∨
    ∃ segment ∈ path.splitOn '/',
      segment = [] ∨ segment = lit "." ∨ segment = lit ".."

theorem refuse?_isSome_iff (segment : Text) :
    (∃ reason, parsePath.refuse? segment = some reason) ↔
      segment = [] ∨ segment = lit "." ∨ segment = lit ".." := by
  unfold parsePath.refuse?
  by_cases empty : segment = []
  · rw [if_pos empty]
    exact ⟨fun _ => Or.inl empty, fun _ => ⟨_, rfl⟩⟩
  by_cases above : segment = lit ".."
  · rw [if_neg empty, if_pos above]
    exact ⟨fun _ => Or.inr (Or.inr above), fun _ => ⟨_, rfl⟩⟩
  by_cases here : segment = lit "."
  · rw [if_neg empty, if_neg above, if_pos here]
    exact ⟨fun _ => Or.inr (Or.inl here), fun _ => ⟨_, rfl⟩⟩
  · rw [if_neg empty, if_neg above, if_neg here]
    simp [empty, above, here]

theorem parsePath_malformed
    {path : Text}
    (malformed : Malformed path) :
    ∃ reason, parsePath path = .error (.malformedPath path reason) := by
  unfold parsePath
  by_cases empty : path = []
  · rw [if_pos empty]
    exact ⟨_, rfl⟩
  by_cases absolute : path.head? = some '/'
  · rw [if_neg empty, if_pos absolute]
    exact ⟨_, rfl⟩
  rw [if_neg empty, if_neg absolute]
  rcases malformed with impossible | impossible | ⟨segment, member, shape⟩
  · exact absurd impossible empty
  · exact absurd impossible absolute
  · rcases (refuse?_isSome_iff segment).2 shape with ⟨reason, refused⟩
    have found :
        ((path.splitOn '/').findSome? parsePath.refuse?).isSome := by
      rw [List.findSome?_isSome_iff]
      exact ⟨segment, member, by rw [refused]; rfl⟩
    rcases Option.isSome_iff_exists.1 found with ⟨first, same⟩
    rw [same]
    exact ⟨first, rfl⟩

theorem parsePath_wellFormed
    {path : Text}
    (wellFormed : ¬ Malformed path) :
    parsePath path = .ok (path.splitOn '/') := by
  unfold parsePath
  rw [if_neg fun empty => wellFormed (Or.inl empty),
    if_neg fun absolute => wellFormed (Or.inr (Or.inl absolute))]
  cases found : (path.splitOn '/').findSome? parsePath.refuse? with
  | none => rfl
  | some reason =>
      rcases List.exists_of_findSome?_eq_some found with
        ⟨segment, member, refused⟩
      have shape := (refuse?_isSome_iff segment).1 ⟨reason, refused⟩
      exact absurd (Or.inr (Or.inr ⟨segment, member, shape⟩)) wellFormed

/-! ## The entry a path names -/

/-- The entry of a tree at a path of names. -/
inductive EntryAt (objects : Objects) : Sha → List Text → TreeEntry → Prop
  | here
      {tree : Sha}
      {entries : List TreeEntry}
      {entry : TreeEntry}
      {name : Text}
      (known : objects.object? tree = some (.tree entries))
      (member : entry ∈ entries)
      (named : entry.filename = .ok name) :
      EntryAt objects tree [name] entry
  | down
      {tree : Sha}
      {entries : List TreeEntry}
      {directory entry : TreeEntry}
      {name : Text}
      {rest : List Text}
      (known : objects.object? tree = some (.tree entries))
      (member : directory ∈ entries)
      (named : directory.filename = .ok name)
      (isTree : directory.kind = .tree)
      (further : EntryAt objects directory.oid rest entry) :
      EntryAt objects tree (name :: rest) entry

/-- No directory below a tree has two entries of one name. -/
def UniqueNames (objects : Objects) (root : Sha) : Prop :=
  ∀ tree ∈ objects.reach root,
    ∀ entries,
      objects.object? tree = some (.tree entries) →
        (entries.map TreeEntry.filename).Nodup

/-! ## The nodes of a directory -/

theorem lookup_cons_eq
    (key other : Text)
    (node : PathNode)
    (rest : List (Text × PathNode)) :
    ((key, node) :: rest).lookup other =
      if other = key then some node else rest.lookup other := by
  by_cases same : other = key
  · rw [if_pos same, same, List.lookup_cons_self]
  · rw [if_neg same, List.lookup_cons, beq_false_of_ne same]

theorem lookup_filter_ne
    (name other : Text)
    (nodes : List (Text × PathNode)) :
    (nodes.filter fun entry => entry.1 ≠ name).lookup other =
      if other = name then none else nodes.lookup other := by
  induction nodes with
  | nil => simp
  | cons first rest hypothesis =>
      rcases first with ⟨key, node⟩
      rw [lookup_cons_eq]
      by_cases same : key = name
      · subst same
        rw [List.filter_cons_of_neg (by simp), hypothesis]
        by_cases here : other = key
        · rw [if_pos here, if_pos here]
        · rw [if_neg here, if_neg here, if_neg here]
      · rw [List.filter_cons_of_pos (by simpa using same), lookup_cons_eq,
          hypothesis]
        by_cases here : other = key
        · rw [if_pos here, if_pos here, here, if_neg same]
        · rw [if_neg here, if_neg here]

theorem lookup_insertNode
    (name other : Text)
    (node : PathNode)
    (nodes : List (Text × PathNode)) :
    (insertNode name node nodes).lookup other =
      if other = name then some node else nodes.lookup other := by
  rw [insertNode, List.lookup_append, lookup_filter_ne, lookup_cons_eq]
  by_cases same : other = name
  · rw [if_pos same, if_pos same, if_pos same, Option.none_or]
  · rw [if_neg same, if_neg same, if_neg same, List.lookup_nil,
      Option.or_none]

variable
  {below : Sha → Except PackchainError (List (Text × PathNode))}
  {entries : List TreeEntry}
  {before after : List (Text × PathNode)}

/-- A walk leaves the nodes of names that none of its entries have. -/
theorem lookup_foldlM_of_forall
    {name : Text}
    (walked : entries.foldlM (walkEntry below) before = .ok after)
    (absent :
      ∀ entry ∈ entries, entry.filename = .ok name → entry.kind = .commit) :
    after.lookup name = before.lookup name := by
  induction entries generalizing before with
  | nil =>
      cases walked
      rfl
  | cons first rest hypothesis =>
      rw [List.foldlM_cons] at walked
      cases stepped : walkEntry below before first with
      | error error =>
          rw [stepped] at walked
          cases walked
      | ok next =>
          rw [stepped] at walked
          rw [hypothesis walked fun entry member =>
            absent entry (List.mem_cons_of_mem first member)]
          rcases walkEntry_ok stepped with
            ⟨other, named, ⟨-, rfl⟩ | ⟨node, recorded, rfl⟩⟩
          · rfl
          · rw [lookup_insertNode, if_neg]
            rintro rfl
            have submodule := absent first List.mem_cons_self named
            cases recorded with
            | tree directory _ =>
                rw [submodule] at directory
                cases directory
            | blob file =>
                rw [submodule] at file
                cases file

/-- A walk records every entry that is not a submodule under its name. -/
theorem lookup_foldlM_of_mem
    (walked : entries.foldlM (walkEntry below) before = .ok after)
    (unique : (entries.map TreeEntry.filename).Nodup)
    {entry : TreeEntry}
    (member : entry ∈ entries)
    (inside : entry.kind ≠ .commit)
    {name : Text}
    (named : entry.filename = .ok name) :
    ∃ node, Recorded below entry node ∧ after.lookup name = some node := by
  induction entries generalizing before with
  | nil => cases member
  | cons first rest hypothesis =>
      rw [List.foldlM_cons] at walked
      rw [List.map_cons, List.nodup_cons] at unique
      cases stepped : walkEntry below before first with
      | error error =>
          rw [stepped] at walked
          cases walked
      | ok next =>
          rw [stepped] at walked
          rcases List.mem_cons.1 member with rfl | later
          · rcases walkEntry_ok stepped with
              ⟨other, again, ⟨submodule, -⟩ | ⟨node, recorded, rfl⟩⟩
            · exact absurd submodule inside
            · rw [named] at again
              cases again
              refine ⟨node, recorded, ?_⟩
              rw [lookup_foldlM_of_forall walked, lookup_insertNode,
                if_pos rfl]
              intro other member same
              refine absurd ?_ unique.1
              rw [named, ← same]
              exact List.mem_map_of_mem member
          · exact hypothesis walked unique.2 later

/-- The nodes of a tree have, by name, the entries that are no submodules. -/
theorem lookup_walked
    (walked : entries.foldlM (walkEntry below) [] = .ok after)
    (unique : (entries.map TreeEntry.filename).Nodup)
    (name : Text) :
    (∃ entry ∈ entries,
        entry.filename = .ok name ∧
          entry.kind ≠ .commit ∧
          ∃ node,
            Recorded below entry node ∧ after.lookup name = some node) ∨
      (∀ entry ∈ entries,
          entry.filename = .ok name → entry.kind = .commit) ∧
        after.lookup name = none := by
  by_cases absent :
      ∀ entry ∈ entries, entry.filename = .ok name → entry.kind = .commit
  · exact Or.inr ⟨absent, lookup_foldlM_of_forall walked absent⟩
  · push Not at absent
    rcases absent with ⟨entry, member, named, inside⟩
    exact
      Or.inl
        ⟨entry, member, named, inside,
          lookup_foldlM_of_mem walked unique member inside named⟩

/-! ## Walking a path -/

theorem walkPath_singleton
    (root : List (Text × PathNode))
    (name refName path : Text) :
    walkPath root [name] refName path =
      match root.lookup name with
      | some (.blob sha) => .ok sha
      | some (.tree _) => .error (.error (.pathNotABlob path))
      | none => .error (.error (.pathNotFound refName path)) :=
  rfl

theorem walkPath_cons
    (root : List (Text × PathNode))
    (name : Text)
    {rest : List Text}
    (further : rest ≠ [])
    (refName path : Text) :
    walkPath root (name :: rest) refName path =
      match root.lookup name with
      | some (.tree children) => walkPath children rest refName path
      | _ => .error (.error (.pathNotFound refName path)) := by
  cases rest with
  | nil => exact absurd rfl further
  | cons second others =>
      rw [walkPath, List.getLast?_cons_cons, List.dropLast_cons_cons,
        List.foldlM_cons, descend]
      cases root.lookup name with
      | none =>
          cases last : (second :: others).getLast? with
          | none => simp at last
          | some segment => rfl
      | some node =>
          cases node with
          | blob sha =>
              cases last : (second :: others).getLast? with
              | none => simp at last
              | some segment => rfl
          | tree children => rfl

/-- What looking up the path of an entry answers. -/
def answer (refName path : Text) (entry : TreeEntry) : Except Halt Sha40 :=
  match entry.kind with
  | .tree => .error (.error (.pathNotABlob path))
  | .commit => .error (.error (.pathNotFound refName path))
  | .blob => .ok entry.oid
  | .blobExecutable => .ok entry.oid
  | .link => .ok entry.oid

/-- One name stands for one entry. -/
theorem eq_of_filename
    {entries : List TreeEntry}
    (unique : (entries.map TreeEntry.filename).Nodup)
    {entry other : TreeEntry}
    (member : entry ∈ entries)
    (member' : other ∈ entries)
    {name : Text}
    (named : entry.filename = .ok name)
    (named' : other.filename = .ok name) :
    entry = other :=
  List.inj_on_of_nodup_map unique member member' (named.trans named'.symm)

theorem UniqueNames.down
    {objects : Objects}
    {tree : Sha}
    (unique : UniqueNames objects tree)
    {entries : List TreeEntry}
    (known : objects.object? tree = some (.tree entries))
    {directory : TreeEntry}
    (member : directory ∈ entries)
    (isTree : directory.kind = .tree) :
    UniqueNames objects directory.oid := by
  intro other reached
  apply unique other
  refine reach_subset_reach ?_ reached
  apply closed_reach tree tree (self_mem_reach tree)
  exact
    (Objects.mem_links_tree known).2
      ⟨directory, member, .tree, by rw [isTree]; rfl, rfl⟩

/-- A path names at most one entry. -/
theorem EntryAt.unique
    {objects : Objects}
    {tree : Sha}
    (names : UniqueNames objects tree)
    {segments : List Text}
    {entry other : TreeEntry}
    (at1 : EntryAt objects tree segments entry)
    (at2 : EntryAt objects tree segments other) :
    entry = other := by
  induction at1 generalizing other with
  | @here tree entries entry name known member named =>
      have nodup := names tree (self_mem_reach tree) entries known
      cases at2 with
      | here known' member' named' =>
          rw [known] at known'
          cases known'
          exact eq_of_filename nodup member member' named named'
      | down _ _ _ _ further => cases further
  | @down tree entries directory entry name rest known member named isTree
      further hypothesis =>
      have nodup := names tree (self_mem_reach tree) entries known
      cases at2 with
      | here _ _ _ => cases further
      | down known' member' named' isTree' further' =>
          rw [known] at known'
          cases known'
          cases eq_of_filename nodup member member' named named'
          exact hypothesis (names.down known member isTree) further'

/-- Looking a path up answers for the entry it names, if there is one. -/
theorem walkPath_cases
    {objects : Objects}
    {odb : Odb}
    {ancestors : List Sha}
    {tree : Sha}
    {nodes : List (Text × PathNode)}
    (walks : Walks objects odb ancestors tree (.ok nodes))
    (unique : UniqueNames objects tree)
    {segments : List Text}
    (nonempty : segments ≠ [])
    (refName path : Text) :
    (∃ entry,
        EntryAt objects tree segments entry ∧
          walkPath nodes segments refName path =
            answer refName path entry) ∨
      (∀ entry, ¬ EntryAt objects tree segments entry) ∧
        walkPath nodes segments refName path =
          .error (.error (.pathNotFound refName path)) := by
  induction segments generalizing ancestors tree nodes with
  | nil => exact absurd rfl nonempty
  | cons name rest hypothesis =>
      rcases walks.ok_inv with ⟨entries, below, known, walked, each⟩
      have nodup := unique tree (self_mem_reach tree) entries known
      by_cases last : rest = []
      · subst last
        rw [walkPath_singleton]
        rcases lookup_walked walked nodup name with
          ⟨entry, member, named, -, node, recorded, found⟩ |
            ⟨absent, missing⟩
        · left
          refine ⟨entry, .here known member named, ?_⟩
          rw [found]
          cases recorded with
          | tree directory _ => rw [answer, directory]
          | blob file =>
              rw [answer]
              cases kind : entry.kind with
              | tree =>
                  rw [kind] at file
                  cases file
              | commit =>
                  rw [kind] at file
                  cases file
              | _ => rfl
        · rw [missing]
          by_cases present :
              ∃ entry ∈ entries, entry.filename = .ok name
          · rcases present with ⟨entry, member, named⟩
            left
            refine ⟨entry, .here known member named, ?_⟩
            rw [answer, absent entry member named]
          · right
            refine ⟨?_, rfl⟩
            intro entry found
            cases found with
            | here known' member named =>
                rw [known] at known'
                cases known'
                exact present ⟨entry, member, named⟩
            | down _ _ _ _ further => cases further
      · rw [walkPath_cons nodes name last]
        have through
            {entry directory : TreeEntry}
            (member : directory ∈ entries)
            (named : directory.filename = .ok name)
            (found : EntryAt objects tree (name :: rest) entry) :
            directory.kind = .tree ∧
              EntryAt objects directory.oid rest entry := by
          cases found with
          | here _ _ _ => exact absurd rfl last
          | down known' member' named' isTree further =>
              rw [known] at known'
              cases known'
              cases eq_of_filename nodup member member' named named'
              exact ⟨isTree, further⟩
        rcases lookup_walked walked nodup name with
          ⟨directory, member, named, -, node, recorded, found⟩ |
            ⟨absent, missing⟩
        · rw [found]
          cases recorded with
          | tree isTree children =>
              have inner := each directory member isTree
              rw [children] at inner
              rcases hypothesis inner (unique.down known member isTree) last
                with ⟨entry, further, same⟩ | ⟨nowhere, same⟩
              · exact
                  Or.inl
                    ⟨entry, .down known member named isTree further, same⟩
              · exact
                  Or.inr
                    ⟨fun entry found =>
                      nowhere entry (through member named found).2, same⟩
          | blob file =>
              right
              refine ⟨?_, rfl⟩
              intro entry found
              rw [(through member named found).1] at file
              cases file
        · rw [missing]
          right
          refine ⟨?_, rfl⟩
          intro entry found
          cases found with
          | here _ _ _ => exact absurd rfl last
          | down known' member named isTree _ =>
              rw [known] at known'
              cases known'
              rw [absent _ member named] at isTree
              cases isTree

/-! ## The index and the tree agree -/

/-- What is found in an index is what the segments name in the tree. -/
structure LookupAgrees
    (objects : Objects)
    (root : Sha)
    (index : PathIndex)
    (segments : List Text)
    (refName path : Text) : Prop where
  file :
    ∀ sha,
      walkPath index.tree segments refName path = .ok sha ↔
        ∃ entry,
          EntryAt objects root segments entry ∧
            entry.kind.expected? = some .blob ∧ entry.oid = sha
  directory :
    walkPath index.tree segments refName path =
        .error (.error (.pathNotABlob path)) ↔
      ∃ entry,
        EntryAt objects root segments entry ∧ entry.kind = .tree
  otherwise :
    walkPath index.tree segments refName path =
        .error (.error (.pathNotFound refName path)) ↔
      ∀ entry,
        EntryAt objects root segments entry → entry.kind = .commit

/-- One answer tells which kind of entry the path names. -/
theorem answer_cases (refName path : Text) (entry : TreeEntry) :
    (entry.kind.expected? = some .blob ∧
        answer refName path entry = .ok entry.oid) ∨
      (entry.kind = .tree ∧
          answer refName path entry =
            .error (.error (.pathNotABlob path))) ∨
        entry.kind = .commit ∧
          answer refName path entry =
            .error (.error (.pathNotFound refName path)) := by
  unfold answer
  cases entry.kind with
  | tree => exact Or.inr (Or.inl ⟨rfl, rfl⟩)
  | commit => exact Or.inr (Or.inr ⟨rfl, rfl⟩)
  | _ => exact Or.inl ⟨rfl, rfl⟩

theorem lookupAgrees_of_walks
    {objects : Objects}
    {odb : Odb}
    {root : Sha}
    {index : PathIndex}
    (walks : Walks objects odb [] root (.ok index.tree))
    (unique : UniqueNames objects root)
    {segments : List Text}
    (nonempty : segments ≠ [])
    (refName path : Text) :
    LookupAgrees objects root index segments refName path := by
  rcases walkPath_cases walks unique nonempty refName path with
    ⟨entry, here, same⟩ | ⟨nowhere, same⟩
  · have only {other : TreeEntry}
        (found : EntryAt objects root segments other) : other = entry :=
      found.unique unique here
    constructor
    case file =>
        intro sha
        rw [same]
        constructor
        · intro answered
          rcases answer_cases refName path entry with
            ⟨file, given⟩ | ⟨-, given⟩ | ⟨-, given⟩
          · rw [given] at answered
            cases answered
            exact ⟨entry, here, file, rfl⟩
          · rw [given] at answered
            cases answered
          · rw [given] at answered
            cases answered
        · rintro ⟨other, found, file, rfl⟩
          rw [only found] at file ⊢
          rcases answer_cases refName path entry with
            ⟨-, given⟩ | ⟨directory, -⟩ | ⟨submodule, -⟩
          · exact given
          · rw [directory] at file
            cases file
          · rw [submodule] at file
            cases file
    case directory =>
        rw [same]
        constructor
        · intro answered
          rcases answer_cases refName path entry with
            ⟨-, given⟩ | ⟨directory, -⟩ | ⟨-, given⟩
          · rw [given] at answered
            cases answered
          · exact ⟨entry, here, directory⟩
          · rw [given] at answered
            cases answered
        · rintro ⟨other, found, directory⟩
          rw [only found] at directory
          rw [answer, directory]
    case otherwise =>
        rw [same]
        constructor
        · intro answered other found
          rw [only found]
          rcases answer_cases refName path entry with
            ⟨-, given⟩ | ⟨-, given⟩ | ⟨submodule, -⟩
          · rw [given] at answered
            cases answered
          · rw [given] at answered
            cases answered
          · exact submodule
        · intro submodules
          rw [answer, submodules entry here]
  · constructor
    case file =>
        intro sha
        rw [same]
        constructor
        · intro answered
          cases answered
        · rintro ⟨entry, found, -⟩
          exact absurd found (nowhere entry)
    case directory =>
        rw [same]
        constructor
        · intro answered
          cases answered
        · rintro ⟨entry, found, -⟩
          exact absurd found (nowhere entry)
    case otherwise =>
        rw [same]
        constructor
        · intro _ entry found
          exact absurd found (nowhere entry)
        · intro _
          rfl

/--
A path is refused exactly when it is malformed, and any other is answered
from the index of a tree as the tree itself would answer.
-/
theorem paths_agree
    {repo : LocalRepo}
    {objects : Objects}
    {odb : Odb}
    (walking : WalksOver repo objects odb)
    {peeled : PeeledTip}
    {root : Sha}
    (roots : peeled.Roots objects odb root)
    (whole : WholeTree objects odb root)
    (acyclic :
      ∀ tree ∈ objects.reach root, ¬ Loops objects.links tree)
    (unique : UniqueNames objects root)
    (unpeeledTip : Sha) :
    ∃ index,
      repo.extractPathIndex peeled unpeeledTip = .ok (some index) ∧
        ∀ refName path,
          ((∃ reason,
                parsePath path = .error (.malformedPath path reason)) ↔
              Malformed path) ∧
            (¬ Malformed path →
              parsePath path = .ok (path.splitOn '/') ∧
                LookupAgrees objects root index (path.splitOn '/')
                  refName path) := by
  have walks := walks_walkTree objects odb root
  rcases whole.walkTree_cases with
    ⟨nodes, walked, -⟩ | ⟨culprit, walked, tree, reached, loops⟩
  · rw [walked] at walks
    refine ⟨⟨PathIndex.schemaVersion, unpeeledTip, nodes⟩, ?_, ?_⟩
    · rw [walking.extractPathIndex_eq roots, walked]
      rfl
    · intro refName path
      constructor
      · constructor
        · rintro ⟨reason, refused⟩
          by_contra wellFormed
          rw [parsePath_wellFormed wellFormed] at refused
          cases refused
        · exact parsePath_malformed
      · intro wellFormed
        exact
          ⟨parsePath_wellFormed wellFormed,
            lookupAgrees_of_walks walks unique (List.splitOn_ne_nil '/' path)
              refName path⟩
  · exact absurd loops (acyclic tree reached)

/-! ## A tree of several levels -/

/-- A tree with a tree in it that has one too. -/
abbrev nestedTree : Sha := digitSha 'd' hex_d

theorem unique_nestedTree : UniqueNames loopedObjects nestedTree := by
  intro tree _ entries known
  have named :
      ∀ listed ∈ loopedTable,
        (listed.2.entries.map TreeEntry.filename).Nodup := by
    decide +kernel
  rcases List.lookup_eq_some_iff.1 known with ⟨front, back, same, -⟩
  exact named (tree, .tree entries) (by rw [same]; simp)

theorem entryAt_nestedTree :
    EntryAt loopedObjects nestedTree [['m']]
        ⟨.commit, .ok ['m'], digitSha 'c' hex_c⟩ ∧
      EntryAt loopedObjects nestedTree [['a'], ['s']]
        ⟨.tree, .ok ['s'], digitSha '3' hex_3⟩ ∧
      EntryAt loopedObjects nestedTree [['a'], ['s'], ['x']]
        ⟨.blobExecutable, .ok ['x'], digitSha 'b' hex_b⟩ := by
  refine ⟨.here rfl (by simp) rfl, ?_, ?_⟩
  · refine .down rfl List.mem_cons_self rfl rfl ?_
    exact .here rfl (by simp) rfl
  · refine .down rfl List.mem_cons_self rfl rfl ?_
    refine .down rfl (List.mem_cons_of_mem _ List.mem_cons_self) rfl rfl ?_
    exact .here rfl (by simp) rfl

/-- A file two directories down, a directory and a submodule. -/
theorem paths_agree_nestedTree :
    ∃ index,
      loopedRepo.extractPathIndex (.tree nestedTree []) nestedTree =
          .ok (some index) ∧
        walkPath index.tree ((lit "a/s/x").splitOn '/') [] (lit "a/s/x") =
          .ok (digitSha 'b' hex_b) ∧
        walkPath index.tree ((lit "a/s").splitOn '/') [] (lit "a/s") =
          .error (.error (.pathNotABlob (lit "a/s"))) ∧
        walkPath index.tree ((lit "m").splitOn '/') [] (lit "m") =
          .error (.error (.pathNotFound [] (lit "m"))) := by
  have walking := (over_checked loopedObjects 4 loopedOdb).walksOver
  have whole : WholeTree loopedObjects loopedOdb nestedTree :=
    whole_looped List.mem_cons_self ⟨_, rfl⟩
  rcases
    paths_agree walking (.tree nestedTree []) whole
      (fun _ reached => not_loops_of_acc acc_looped reached)
      unique_nestedTree nestedTree with
    ⟨index, extracted, agrees⟩
  have segments :
      (lit "a/s/x").splitOn '/' = [['a'], ['s'], ['x']] ∧
        (lit "a/s").splitOn '/' = [['a'], ['s']] ∧
        (lit "m").splitOn '/' = [['m']] := by
    decide +kernel
  have wellFormed :
      ¬ Malformed (lit "a/s/x") ∧ ¬ Malformed (lit "a/s") ∧
        ¬ Malformed (lit "m") := by
    unfold Malformed
    decide +kernel
  rcases entryAt_nestedTree with ⟨submodule, directory, file⟩
  refine ⟨index, extracted, ?_, ?_, ?_⟩
  · apply (((agrees [] _).2 wellFormed.1).2.file _).2
    rw [segments.1]
    exact ⟨_, file, rfl, rfl⟩
  · apply ((agrees [] _).2 wellFormed.2.1).2.directory.2
    rw [segments.2.1]
    exact ⟨_, directory, rfl⟩
  · apply ((agrees [] _).2 wellFormed.2.2).2.otherwise.2
    rw [segments.2.2]
    intro entry found
    rw [found.unique unique_nestedTree submodule]

end GitRemoteObjectStore.Read
