import GitRemoteObjectStore.PackBuild
import GitRemoteObjectStore.ObjectIds
import GitRemoteObjectStore.Library.BreadthFirst

/-!
# Shallow boundaries

A shallow fetch cuts the history off at a depth.  The commits at that depth
are found by a breadth-first walk and written, with the boundaries of earlier
fetches that still are some, to the file `shallow` of the git directory.
-/

namespace GitRemoteObjectStore

open BreadthFirst

/-! ## The parents of a commit -/

/-- The parents of a commit, as the objects have them. -/
def Objects.parents (objects : Objects) (sha : Sha) : List Sha :=
  match objects.object? sha with
  | some (.commit _ parents) => parents
  | _ => []

section Parents

variable (objects : Objects) (odb : Odb)

/--
`peel_to_kind(Kind::Commit)`, and the parents of what it finds.  The tags on
the way are distinct objects of the database, so the bound is not reached.
-/
def peelToCommit : Nat → GitObject → Except GitError (List Sha)
  | _, .commit _ parents => .ok parents
  | 0, .tag _ => .error .peelToKind
  | bound + 1, .tag target =>
      match findObject objects odb target with
      | .error _ => .error .peelToKind
      | .ok object => peelToCommit bound object
  | _, .tree _ => .error .peelToKind
  | _, .blob _ => .error .peelToKind

/-- `find_object`, `peel_to_kind(Kind::Commit)` and `parent_ids`. -/
def parentIds (sha : Sha) : Except GitError (List Sha) :=
  match findObject objects odb sha with
  | .error error => .error error
  | .ok object => peelToCommit objects odb odb.card object

end Parents

/-- A commit that is in the database has the parents its object names. -/
theorem parentIds_commit
    {objects : Objects}
    {odb : Odb}
    {sha root : Sha}
    {parents : List Sha}
    (known : objects.object? sha = some (.commit root parents))
    (inside : sha ∈ odb) :
    parentIds objects odb sha = .ok parents := by
  rw [parentIds, findObject_ok.2 ⟨inside, known⟩]
  cases odb.card <;> rfl

/-! ## The walk -/

/-- `shallow_boundaries` -/
def shallowBoundaries
    (objects : Objects)
    (odb : Odb)
    (tip : Sha)
    (maxDepth : Nat) : Except GitError (List Sha) :=
  match peelTagChain objects odb tip with
  | .error error => .error error
  | .ok (.tree _ _) => .ok []
  | .ok (.blob _ _) => .ok []
  | .ok (.commit commit _) =>
      search (parentIds objects odb) maxDepth
        (enough objects.parents odb) [(commit, 1)] [] []

/-- What is known of a name is a commit. -/
def Objects.OfCommit (objects : Objects) (sha : Sha) : Prop :=
  ∀ object, objects.object? sha = some object → object.kind = .commit

theorem Objects.OfCommit.parent
    {objects : Objects}
    {sha parent : Sha}
    (linked : parent ∈ objects.parents sha) :
    objects.OfCommit parent := by
  unfold Objects.parents at linked
  split at linked
  next root parents known =>
      intro object found
      refine objects.typed sha _ known (parent, .commit) ?_ object found
      exact List.mem_cons_of_mem _ (List.mem_map_of_mem linked)
  · cases linked

theorem ofCommit_of_level
    {objects : Objects}
    {commit : Sha}
    (start : objects.OfCommit commit)
    {steps : Nat}
    {sha : Sha}
    (reached : sha ∈ level objects.parents commit steps) :
    objects.OfCommit sha := by
  cases steps with
  | zero =>
      cases reached
      exact start
  | succ steps =>
      rcases reached with ⟨source, -, linked⟩
      exact .parent linked

/-- A commit is read exactly when it is present. -/
theorem parentIds_ofCommit
    {objects : Objects}
    {odb : Odb}
    {sha : Sha}
    (commit : objects.OfCommit sha) :
    (∃ parents, parentIds objects odb sha = .ok parents) ↔
      ∃ object, findObject objects odb sha = .ok object := by
  constructor
  · rintro ⟨parents, read⟩
    cases found : findObject objects odb sha with
    | error error =>
        rw [parentIds, found] at read
        cases read
    | ok object => exact ⟨object, rfl⟩
  · rintro ⟨object, found⟩
    rcases findObject_ok.1 found with ⟨inside, known⟩
    have kind := commit object known
    cases object with
    | commit root parents => exact ⟨parents, parentIds_commit known inside⟩
    | _ => cases kind

/-- What the shallow boundaries of a commit are. -/
structure Boundaries
    (objects : Objects)
    (odb : Odb)
    (commit : Sha)
    (maxDepth : Nat)
    (result : Except GitError (List Sha)) : Prop where
  /-- Nothing but the commits above the boundary is needed. -/
  succeeds :
    (∃ frontier, result = .ok frontier) ↔
      ∀ sha ∈ ball objects.parents commit (maxDepth - 1),
        ∃ object, findObject objects odb sha = .ok object
  nodup : ∀ frontier, result = .ok frontier → frontier.Nodup
  exact :
    ∀ frontier,
      result = .ok frontier →
        ∀ sha,
          sha ∈ frontier ↔
            sha ∈ sphere objects.parents commit (maxDepth - 1)
  empty :
    ∀ frontier,
      result = .ok frontier →
        (frontier = [] ↔
          sphere objects.parents commit (maxDepth - 1) = ∅)

/--
The boundaries of a tip are the commits at the depth, if every commit above
them is present; a tip that is no commit has none.
-/
theorem shallowBoundaries_exact
    (objects : Objects)
    (odb : Odb)
    (tip : Sha)
    {maxDepth : Nat}
    (positive : 0 < maxDepth) :
    (∀ commit tagChain,
        peelTagChain objects odb tip = .ok (.commit commit tagChain) →
          Boundaries objects odb commit maxDepth
            (shallowBoundaries objects odb tip maxDepth)) ∧
      (∀ tree tagChain,
        peelTagChain objects odb tip = .ok (.tree tree tagChain) →
          shallowBoundaries objects odb tip maxDepth = .ok []) ∧
        ∀ blob tagChain,
          peelTagChain objects odb tip = .ok (.blob blob tagChain) →
            shallowBoundaries objects odb tip maxDepth = .ok [] := by
  refine ⟨?_, ?_, ?_⟩
  · intro commit tagChain peels
    rcases (peelTagChain_ok peels).kinded with ⟨root, parents, known⟩
    have start : objects.OfCommit commit := by
      intro object found
      rw [known] at found
      cases found
      rfl
    have expands :
        ∀ sha ∈ ball objects.parents commit (maxDepth - 1),
          ∀ nexts,
            parentIds objects odb sha = .ok nexts →
              nexts = objects.parents sha ∧ sha ∈ odb := by
      rintro sha ⟨steps, -, reached⟩ nexts read
      have isCommit := ofCommit_of_level start reached
      rcases (parentIds_ofCommit isCommit).1 ⟨nexts, read⟩ with
        ⟨object, found⟩
      rcases findObject_ok.1 found with ⟨inside, known⟩
      have kind := isCommit object known
      cases object with
      | commit root parents =>
          rw [parentIds_commit known inside] at read
          cases read
          exact ⟨by rw [Objects.parents, known], inside⟩
      | _ => cases kind
    have ends := search_from expands positive
    have same :
        shallowBoundaries objects odb tip maxDepth =
          search (parentIds objects odb) maxDepth
            (enough objects.parents odb) [(commit, 1)] [] [] := by
      rw [shallowBoundaries, peels]
    have present (sha : Sha)
        (near : sha ∈ ball objects.parents commit (maxDepth - 1)) :
        (∃ parents, parentIds objects odb sha = .ok parents) ↔
          ∃ object, findObject objects odb sha = .ok object := by
      rcases near with ⟨steps, -, reached⟩
      exact parentIds_ofCommit (ofCommit_of_level start reached)
    have found {frontier : List Sha}
        (result :
          shallowBoundaries objects odb tip maxDepth = .ok frontier) :
        Found objects.parents commit (parentIds objects odb) maxDepth
          frontier := by
      rw [same] at result
      rw [result] at ends
      cases ends with
      | found found => exact found
    constructor
    case succeeds =>
        constructor
        · rintro ⟨frontier, result⟩ sha near
          exact (present sha near).1 ((found result).expanded sha near)
        · intro all
          rw [same]
          generalize
            search (parentIds objects odb) maxDepth
              (enough objects.parents odb) [(commit, 1)] [] [] =
              result at ends
          cases ends with
          | found _ => exact ⟨_, rfl⟩
          | failed near fails =>
              rcases (present _ near).2 (all _ near) with ⟨parents, read⟩
              rw [fails] at read
              cases read
    case nodup =>
        intro frontier result
        rw [same] at result
        exact
          search_nodup List.nodup_nil (fun _ member => by cases member)
            result
    case exact => exact fun frontier result => (found result).frontier
    case empty =>
        intro frontier result
        have members := (found result).frontier
        rw [List.eq_nil_iff_forall_not_mem, Set.eq_empty_iff_forall_notMem]
        exact
          forall_congr' fun sha => not_congr (members sha)
  · intro tree tagChain peels
    rw [shallowBoundaries, peels]
  · intro blob tagChain peels
    rw [shallowBoundaries, peels]

/-- The tag of the second commit, cut off below that commit. -/
theorem shallowBoundaries_exact_small :
    Boundaries smallObjects (smallTable.map Prod.fst).toFinset
      (digitSha 'b' hex_b) 2
      (shallowBoundaries smallObjects (smallTable.map Prod.fst).toFinset
        (digitSha 'd' hex_d) 2) :=
  (shallowBoundaries_exact smallObjects
    (smallTable.map Prod.fst).toFinset (digitSha 'd' hex_d)
    (Nat.succ_pos 1)).1 (digitSha 'b' hex_b) [digitSha 'd' hex_d] rfl

/-! ## What a name peels to -/

/-- A chain of tags, all present, that ends in a commit. -/
inductive PeelsToCommit
    (objects : Objects)
    (odb : Odb) : Nat → Sha → List Sha → Prop
  | commit
      {sha root : Sha}
      {parents : List Sha}
      (found : findObject objects odb sha = .ok (.commit root parents)) :
      PeelsToCommit objects odb 0 sha parents
  | tag
      {tags : Nat}
      {sha target : Sha}
      {parents : List Sha}
      (found : findObject objects odb sha = .ok (.tag target))
      (further : PeelsToCommit objects odb tags target parents) :
      PeelsToCommit objects odb (tags + 1) sha parents

namespace PeelsToCommit

variable
  {objects : Objects}
  {odb : Odb}
  {tags others : Nat}
  {sha : Sha}
  {parents more : List Sha}

theorem present (peels : PeelsToCommit objects odb tags sha parents) :
    sha ∈ odb := by
  cases peels with
  | commit found => exact (findObject_ok.1 found).1
  | tag found _ => exact (findObject_ok.1 found).1

/-- A name has one chain. -/
theorem unique
    (peels : PeelsToCommit objects odb tags sha parents)
    (again : PeelsToCommit objects odb others sha more) :
    tags = others ∧ parents = more := by
  induction peels generalizing others with
  | commit found =>
      cases again with
      | commit found' =>
          rw [found] at found'
          cases found'
          exact ⟨rfl, rfl⟩
      | tag found' _ =>
          rw [found] at found'
          cases found'
  | tag found _ hypothesis =>
      cases again with
      | commit found' =>
          rw [found] at found'
          cases found'
      | tag found' further' =>
          rw [found] at found'
          cases found'
          rcases hypothesis further' with ⟨rfl, same⟩
          exact ⟨rfl, same⟩

/-- The names of a chain are distinct, so it is no longer than the database. -/
theorem exists_names
    (peels : PeelsToCommit objects odb tags sha parents) :
    ∃ names : List Sha,
      names.length = tags + 1 ∧
        names.Nodup ∧
        (∀ name ∈ names, name ∈ odb) ∧
        ∀ name ∈ names,
          ∃ fewer ≤ tags, PeelsToCommit objects odb fewer name parents := by
  induction peels with
  | @commit sha root parents found =>
      have here : PeelsToCommit objects odb 0 sha parents := .commit found
      refine ⟨[sha], rfl, List.nodup_singleton sha, ?_, ?_⟩
      · intro name member
        rw [List.mem_singleton.1 member]
        exact here.present
      · intro name member
        rw [List.mem_singleton.1 member]
        exact ⟨0, Nat.le_refl 0, here⟩
  | @tag tags sha target parents found further hypothesis =>
      have here : PeelsToCommit objects odb (tags + 1) sha parents :=
        .tag found further
      rcases hypothesis with ⟨names, length, nodup, inside, chains⟩
      refine ⟨sha :: names, by rw [List.length_cons, length], ?_, ?_, ?_⟩
      · refine List.nodup_cons.2 ⟨?_, nodup⟩
        intro again
        rcases chains sha again with ⟨fewer, bound, peels⟩
        have same := (here.unique peels).1
        omega
      · intro name member
        rcases List.mem_cons.1 member with rfl | later
        · exact here.present
        · exact inside name later
      · intro name member
        rcases List.mem_cons.1 member with rfl | later
        · exact ⟨tags + 1, Nat.le_refl _, here⟩
        · rcases chains name later with ⟨fewer, bound, peels⟩
          exact ⟨fewer, Nat.le_succ_of_le bound, peels⟩

theorem lt_card (peels : PeelsToCommit objects odb tags sha parents) :
    tags < odb.card := by
  rcases peels.exists_names with ⟨names, length, nodup, inside, -⟩
  have few : names.toFinset.card ≤ odb.card := by
    apply Finset.card_le_card
    intro name member
    exact inside name (List.mem_toFinset.1 member)
  rw [List.toFinset_card_of_nodup nodup, length] at few
  exact few

theorem peelToCommit_eq
    (peels : PeelsToCommit objects odb tags sha parents)
    {bound : Nat}
    (enough : tags ≤ bound)
    {object : GitObject}
    (found : findObject objects odb sha = .ok object) :
    peelToCommit objects odb bound object = .ok parents := by
  induction peels generalizing bound object with
  | commit here =>
      rw [here] at found
      cases found
      cases bound <;> rfl
  | tag here further hypothesis =>
      rw [here] at found
      cases found
      cases bound with
      | zero => exact absurd enough (Nat.not_succ_le_zero _)
      | succ bound =>
          rcases further with ⟨next⟩ | ⟨next, rest⟩
          · rw [peelToCommit, next]
            exact hypothesis (Nat.le_of_succ_le_succ enough) next
          · rw [peelToCommit, next]
            exact hypothesis (Nat.le_of_succ_le_succ enough) next

end PeelsToCommit

theorem peelsToCommit_of_peelToCommit
    {objects : Objects}
    {odb : Odb}
    {bound : Nat}
    {sha : Sha}
    {object : GitObject}
    {parents : List Sha}
    (found : findObject objects odb sha = .ok object)
    (peeled : peelToCommit objects odb bound object = .ok parents) :
    ∃ tags, PeelsToCommit objects odb tags sha parents := by
  induction bound generalizing sha object with
  | zero =>
      cases object with
      | commit root others =>
          cases peeled
          exact ⟨0, .commit found⟩
      | _ => cases peeled
  | succ bound hypothesis =>
      cases object with
      | commit root others =>
          cases peeled
          exact ⟨0, .commit found⟩
      | tag target =>
          rw [peelToCommit] at peeled
          cases next : findObject objects odb target with
          | error error =>
              rw [next] at peeled
              cases peeled
          | ok object =>
              rw [next] at peeled
              rcases hypothesis next peeled with ⟨tags, further⟩
              exact ⟨tags + 1, .tag found further⟩
      | tree _ => cases peeled
      | blob _ => cases peeled

/-- The parents read are those of the commit a name peels to. -/
theorem parentIds_ok
    {objects : Objects}
    {odb : Odb}
    {sha : Sha}
    {parents : List Sha} :
    parentIds objects odb sha = .ok parents ↔
      ∃ tags, PeelsToCommit objects odb tags sha parents := by
  constructor
  · intro read
    unfold parentIds at read
    split at read
    · cases read
    next object found => exact peelsToCommit_of_peelToCommit found read
  · rintro ⟨tags, peels⟩
    cases found : findObject objects odb sha with
    | error error =>
        cases peels with
        | commit here =>
            rw [found] at here
            cases here
        | tag here _ =>
            rw [found] at here
            cases here
    | ok object =>
        rw [parentIds, found]
        exact peels.peelToCommit_eq peels.lt_card.le found

end GitRemoteObjectStore
