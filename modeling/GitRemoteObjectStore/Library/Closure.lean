import Mathlib.Logic.Relation
import Mathlib.Data.Set.Lattice

/-!
# Closed sets of a linked structure

Every node of a linked structure names the nodes it links to.  What is
reachable from a node is the least closed set it is in, and a closed set
stays closed when the difference between two reachable sets is added on top
of the smaller one.
-/

namespace Closure

variable {α : Type} (links : α → List α)

/-- What is reachable from a node, itself included. -/
def reach (start : α) : Set α :=
  { node |
    Relation.ReflTransGen (fun source target => target ∈ links source)
      start node }

/-- A set that has what its members link to. -/
def Closed (nodes : Set α) : Prop :=
  ∀ source ∈ nodes, ∀ target ∈ links source, target ∈ nodes

variable {links}

theorem self_mem_reach (start : α) : start ∈ reach links start :=
  Relation.ReflTransGen.refl

theorem closed_reach (start : α) : Closed links (reach links start) :=
  fun _ inside _ linked => Relation.ReflTransGen.tail inside linked

/-- The reachable set is the least closed one. -/
theorem Closed.reach_subset
    {nodes : Set α}
    (closed : Closed links nodes)
    {start : α}
    (inside : start ∈ nodes) :
    reach links start ⊆ nodes := by
  intro node reached
  induction reached with
  | refl => exact inside
  | tail _ linked hypothesis => exact closed _ hypothesis _ linked

theorem reach_subset_reach
    {start node : α}
    (reached : node ∈ reach links start) :
    reach links node ⊆ reach links start :=
  (closed_reach start).reach_subset reached

/-- A layer on top of what it is based on. -/
theorem Closed.union_layer
    {nodes layer base : Set α}
    (closed : Closed links nodes)
    (based : base ⊆ nodes)
    {start : α}
    (within : layer ⊆ reach links start)
    (covers : reach links start ⊆ layer ∪ base) :
    Closed links (nodes ∪ layer) ∧ reach links start ⊆ nodes ∪ layer := by
  have whole : reach links start ⊆ nodes ∪ layer := by
    intro node reached
    rcases covers reached with fresh | old
    · exact Or.inr fresh
    · exact Or.inl (based old)
  refine ⟨?_, whole⟩
  rintro source (old | fresh) target linked
  · exact Or.inl (closed source old target linked)
  · exact whole (closed_reach start source (within fresh) target linked)

/-- A node reaches itself and whatever it links to reaches. -/
theorem mem_reach_iff {start node : α} :
    node ∈ reach links start ↔
      node = start ∨
        ∃ target ∈ links start, node ∈ reach links target := by
  constructor
  · intro reached
    rcases Relation.ReflTransGen.cases_head reached with same | further
    · exact Or.inl same.symm
    · rcases further with ⟨target, linked, rest⟩
      exact Or.inr ⟨target, linked, rest⟩
  · rintro (rfl | ⟨target, linked, rest⟩)
    · exact self_mem_reach node
    · exact Relation.ReflTransGen.head linked rest

/-- A node with one link. -/
theorem reach_of_single
    {start target : α}
    (single : links start = [target]) :
    reach links start = insert start (reach links target) := by
  ext node
  rw [mem_reach_iff, single, Set.mem_insert_iff]
  simp only [List.mem_singleton, exists_eq_left]

/-- A node without links. -/
theorem reach_of_nil
    {start : α}
    (none : links start = []) :
    reach links start = {start} := by
  ext node
  rw [mem_reach_iff, none, Set.mem_singleton_iff]
  simp only [List.not_mem_nil, false_and, exists_false, or_false]

/-! ## Loops -/

/-- A node that leads back to itself. -/
def Loops (links : α → List α) (node : α) : Prop :=
  Relation.TransGen (fun source target => target ∈ links source) node node

/-- A node on a loop links to one on it. -/
theorem Loops.next
    {node : α}
    (loops : Loops links node) :
    ∃ target ∈ links node, Loops links target := by
  rcases Relation.TransGen.head'_iff.1 loops with ⟨target, linked, back⟩
  exact
    ⟨target, linked, Relation.TransGen.tail' back linked⟩

/-- Where every way down ends, nothing reachable is on a loop. -/
theorem not_loops_of_acc
    {start : α}
    (grounded : Acc (fun target source => target ∈ links source) start)
    {node : α}
    (reached : node ∈ reach links start) :
    ¬ Loops links node := by
  induction grounded generalizing node with
  | intro start _ hypothesis =>
      intro loops
      rcases mem_reach_iff.1 reached with rfl | ⟨target, linked, rest⟩
      · rcases loops.next with ⟨target, linked, again⟩
        exact hypothesis target linked (self_mem_reach target) again
      · exact hypothesis target linked rest loops

/-! ## Listings -/

section Listing

variable [DecidableEq α]

/-- Go through what is to be listed, depth first. -/
def listFrom (links : α → List α) : Nat → List α → List α → List α
  | 0, _, listed => listed
  | _ + 1, [], listed => listed
  | bound + 1, node :: waiting, listed =>
      if node ∈ listed then listFrom links bound waiting listed
      else
        listFrom links bound (links node ++ waiting) (listed ++ [node])

/-- Whether each node is linked to by one before it. -/
def growsFrom (links : α → List α) : List α → List α → Bool
  | _, [] => true
  | before, node :: rest =>
      before.any (fun source => decide (node ∈ links source)) &&
        growsFrom links (node :: before) rest

/-- Whether a list has what its members link to. -/
def isClosed (links : α → List α) (nodes : List α) : Bool :=
  nodes.all fun source =>
    (links source).all fun target => decide (target ∈ nodes)

theorem closed_of_isClosed
    {nodes : List α}
    (closed : isClosed links nodes = true) :
    Closed links { node | node ∈ nodes } := by
  intro source inside target linked
  unfold isClosed at closed
  rw [List.all_eq_true] at closed
  have each := closed source inside
  rw [List.all_eq_true] at each
  exact of_decide_eq_true (each target linked)

/-- What is reachable from a node, if it is found within a bound. -/
def listing?
    (links : α → List α)
    (bound : Nat)
    (start : α) : Option (List α) :=
  let nodes := listFrom links bound [start] []
  if nodes.head? = some start ∧
      growsFrom links [start] nodes.tail = true ∧
      isClosed links nodes = true then
    some nodes
  else none

theorem reach_of_growsFrom
    {start : α}
    {before nodes : List α}
    (grows : growsFrom links before nodes = true)
    (reached : ∀ node ∈ before, node ∈ reach links start) :
    ∀ node ∈ nodes, node ∈ reach links start := by
  induction nodes generalizing before with
  | nil =>
      intro node member
      cases member
  | cons first rest hypothesis =>
      rw [growsFrom, Bool.and_eq_true, List.any_eq_true] at grows
      rcases grows with ⟨⟨source, member, linked⟩, further⟩
      have here : first ∈ reach links start :=
        closed_reach start source (reached source member) first
          (of_decide_eq_true linked)
      have before' :
          ∀ node ∈ first :: before, node ∈ reach links start := by
        intro node inside
        rcases List.mem_cons.1 inside with rfl | earlier
        · exact here
        · exact reached node earlier
      intro node inside
      rcases List.mem_cons.1 inside with rfl | later
      · exact here
      · exact hypothesis further before' node later

/-- A listing has exactly what is reachable. -/
theorem mem_listing?_iff
    {bound : Nat}
    {start : α}
    {nodes : List α}
    (listed : listing? links bound start = some nodes)
    (node : α) :
    node ∈ nodes ↔ node ∈ reach links start := by
  unfold listing? at listed
  simp only at listed
  split at listed
  next checked =>
      cases listed
      rcases checked with ⟨first, grows, closed⟩
      generalize listFrom links bound [start] [] = nodes at *
      cases nodes with
      | nil => cases first
      | cons head rest =>
          cases first
          constructor
          · intro member
            rcases List.mem_cons.1 member with rfl | later
            · exact self_mem_reach node
            · refine reach_of_growsFrom grows ?_ node later
              intro other inside
              rw [List.mem_singleton.1 inside]
              exact self_mem_reach start
          · intro reached
            exact
              (closed_of_isClosed closed).reach_subset List.mem_cons_self
                reached
  · cases listed

end Listing

end Closure
