import Mathlib.Algebra.BigOperators.Group.Finset.Basic
import Mathlib.Algebra.Order.BigOperators.Group.Finset
import Mathlib.Data.Finset.Basic

/-!
# Breadth-first search to a depth

A queue of nodes with their depths is worked off in order; nodes at the
greatest depth are collected and not expanded.  Expanding a node may fail.
The search fails when a node nearer than the greatest depth cannot be
expanded, and otherwise collects the nodes at exactly that distance.
-/

namespace BreadthFirst

variable {α ε : Type}

/-! ## Distances -/

/-- The nodes some walk of a length leads to. -/
def level (links : α → List α) (start : α) : Nat → Set α
  | 0 => {start}
  | steps + 1 =>
      { node | ∃ source ∈ level links start steps, node ∈ links source }

/-- The nodes nearer than a distance. -/
def ball (links : α → List α) (start : α) (radius : Nat) : Set α :=
  { node | ∃ steps < radius, node ∈ level links start steps }

/-- The nodes at a distance. -/
def sphere (links : α → List α) (start : α) (radius : Nat) : Set α :=
  { node |
    node ∈ level links start radius ∧ node ∉ ball links start radius }

section Distances

variable {links : α → List α} {start : α}

theorem ball_succ {radius : Nat} {node : α} :
    node ∈ ball links start (radius + 1) ↔
      node ∈ ball links start radius ∨
        node ∈ level links start radius := by
  constructor
  · rintro ⟨steps, within, reached⟩
    rcases Nat.lt_succ_iff_lt_or_eq.1 within with nearer | rfl
    · exact Or.inl ⟨steps, nearer, reached⟩
    · exact Or.inr reached
  · rintro (⟨steps, nearer, reached⟩ | reached)
    · exact ⟨steps, Nat.lt_succ_of_lt nearer, reached⟩
    · exact ⟨radius, Nat.lt_succ_self radius, reached⟩

theorem ball_mono {small large : Nat} (le : small ≤ large) :
    ball links start small ⊆ ball links start large :=
  fun _ ⟨steps, within, reached⟩ => ⟨steps, within.trans_le le, reached⟩

/-- Past an exhausted level there are no new nodes. -/
theorem level_subset_ball
    {radius : Nat}
    (exhausted : level links start radius ⊆ ball links start radius)
    (more : Nat) :
    level links start (radius + more) ⊆ ball links start radius := by
  induction more with
  | zero => exact exhausted
  | succ more hypothesis =>
      rintro node ⟨source, reached, linked⟩
      rcases hypothesis reached with ⟨steps, within, early⟩
      have further : node ∈ level links start (steps + 1) :=
        ⟨source, early, linked⟩
      rcases Nat.lt_or_ge (steps + 1) radius with nearer | last
      · exact ⟨steps + 1, nearer, further⟩
      · have same : steps + 1 = radius := Nat.le_antisymm within last
        rw [same] at further
        exact exhausted further

end Distances

/-! ## The search -/

/--
Work the queue off.  The bound is on the number of nodes taken from it.
-/
def search
    [DecidableEq α]
    (expand : α → Except ε (List α))
    (limit : Nat) :
    Nat → List (α × Nat) → List α → List α → Except ε (List α)
  | 0, _, _, frontier => .ok frontier
  | _ + 1, [], _, frontier => .ok frontier
  | bound + 1, (node, depth) :: queue, seen, frontier =>
      if node ∈ seen then search expand limit bound queue seen frontier
      else if depth = limit then
        search expand limit bound queue (node :: seen)
          (frontier ++ [node])
      else
        match expand node with
        | .error error => .error error
        | .ok nexts =>
            search expand limit bound
              (queue ++
                (nexts.filter fun next => next ∉ node :: seen).map
                  fun next => (next, depth + 1))
              (node :: seen) frontier

/-- How many nodes can still come out of the queue. -/
def remaining
    [DecidableEq α]
    (links : α → List α)
    (support : Finset α)
    (queue : List (α × Nat))
    (seen : List α) : Nat :=
  queue.length +
    ∑ node ∈ support.filter fun node => node ∉ seen, (links node).length

/-- A bound that suffices for a search from one node. -/
def enough (links : α → List α) (support : Finset α) : Nat :=
  1 + ∑ node ∈ support, (links node).length

section Search

variable {links : α → List α} {start : α}

/--
Where a search stands: the nodes of a level are in front of those of the
next one, and everything nearer has been seen.
-/
structure Sweep
    (links : α → List α)
    (start : α)
    (expand : α → Except ε (List α))
    (limit steps : Nat)
    (front back seen frontier : List α) : Prop where
  within : steps < limit
  inFront : ∀ node ∈ front, node ∈ level links start steps
  inBack :
    ∀ node ∈ back,
      steps + 1 < limit ∧ node ∈ level links start (steps + 1)
  inSeen : ∀ node ∈ seen, node ∈ ball links start (steps + 1)
  nearer : ∀ node ∈ ball links start steps, node ∈ seen
  here : ∀ node ∈ level links start steps, node ∈ seen ∨ node ∈ front
  beyond :
    steps + 1 < limit →
      ∀ node ∈ seen, ∀ target ∈ links node,
        target ∈ seen ∨ target ∈ front ∨ target ∈ back
  expanded :
    ∀ node ∈ seen, node ∈ ball links start (limit - 1) →
      ∃ nexts, expand node = .ok nexts
  collected :
    ∀ node,
      node ∈ frontier ↔
        node ∈ seen ∧ steps + 1 = limit ∧ node ∉ ball links start steps

variable
    {expand : α → Except ε (List α)}
    {limit steps : Nat}
    {node : α}
    {front back seen frontier : List α}

/-- When a level is used up, the next one begins. -/
theorem Sweep.advance
    (sweep :
      Sweep links start expand limit steps [] back seen frontier)
    (further : steps + 1 < limit) :
    Sweep links start expand limit (steps + 1) back [] seen
      frontier where
  within := further
  inFront := fun node member => (sweep.inBack node member).2
  inBack := fun _ member => by cases member
  inSeen := fun node member =>
    ball_mono (Nat.le_succ _) (sweep.inSeen node member)
  nearer := by
    intro node inside
    rcases ball_succ.1 inside with earlier | here
    · exact sweep.nearer node earlier
    · rcases sweep.here node here with seen | front
      · exact seen
      · cases front
  here := by
    rintro node ⟨source, reached, linked⟩
    rcases sweep.here source reached with seen | front
    · rcases sweep.beyond further source seen node linked with
        seen | front | back
      · exact Or.inl seen
      · cases front
      · exact Or.inr back
    · cases front
  beyond := by
    intro _ node member target linked
    rcases sweep.beyond further node member target linked with
      seen | front | back
    · exact Or.inl seen
    · cases front
    · exact Or.inr (Or.inl back)
  expanded := sweep.expanded
  collected := by
    intro node
    constructor
    · intro member
      rcases (sweep.collected node).1 member with ⟨-, last, -⟩
      exact absurd last further.ne
    · rintro ⟨seen, -, outside⟩
      exact absurd (sweep.inSeen node seen) outside

/-- A node that has been seen before is passed over. -/
theorem Sweep.again
    (sweep :
      Sweep links start expand limit steps (node :: front) back seen
        frontier)
    (known : node ∈ seen) :
    Sweep links start expand limit steps front back seen frontier where
  within := sweep.within
  inFront := fun other member =>
    sweep.inFront other (List.mem_cons_of_mem _ member)
  inBack := sweep.inBack
  inSeen := sweep.inSeen
  nearer := sweep.nearer
  here := by
    intro other reached
    rcases sweep.here other reached with seen | front
    · exact Or.inl seen
    · rcases List.mem_cons.1 front with rfl | front
      · exact Or.inl known
      · exact Or.inr front
  beyond := by
    intro further other member target linked
    rcases sweep.beyond further other member target linked with
      seen | front | back
    · exact Or.inl seen
    · rcases List.mem_cons.1 front with rfl | front
      · exact Or.inl known
      · exact Or.inr (Or.inl front)
    · exact Or.inr (Or.inr back)
  expanded := sweep.expanded
  collected := sweep.collected

/-- A node at the greatest depth is collected. -/
theorem Sweep.collect
    (sweep :
      Sweep links start expand limit steps (node :: front) back seen
        frontier)
    (fresh : node ∉ seen)
    (last : steps + 1 = limit) :
    Sweep links start expand limit steps front back (node :: seen)
      (frontier ++ [node]) where
  within := sweep.within
  inFront := fun other member =>
    sweep.inFront other (List.mem_cons_of_mem _ member)
  inBack := sweep.inBack
  inSeen := by
    intro other member
    rcases List.mem_cons.1 member with rfl | member
    · exact ball_succ.2 (Or.inr (sweep.inFront other List.mem_cons_self))
    · exact sweep.inSeen other member
  nearer := fun other inside =>
    List.mem_cons_of_mem _ (sweep.nearer other inside)
  here := by
    intro other reached
    rcases sweep.here other reached with seen | front
    · exact Or.inl (List.mem_cons_of_mem _ seen)
    · rcases List.mem_cons.1 front with rfl | front
      · exact Or.inl List.mem_cons_self
      · exact Or.inr front
  beyond := fun further => absurd last further.ne
  expanded := by
    intro other member inside
    rcases List.mem_cons.1 member with rfl | member
    · rw [← last, Nat.add_sub_cancel] at inside
      exact absurd (sweep.nearer other inside) fresh
    · exact sweep.expanded other member inside
  collected := by
    intro other
    rw [List.mem_append, List.mem_singleton, sweep.collected,
      List.mem_cons]
    constructor
    · rintro (⟨seen, rest⟩ | rfl)
      · exact ⟨Or.inr seen, rest⟩
      · exact
          ⟨Or.inl rfl, last, fun inside =>
            fresh (sweep.nearer other inside)⟩
    · rintro ⟨rfl | seen, rest⟩
      · exact Or.inr rfl
      · exact Or.inl ⟨seen, rest⟩

/-- A nearer node is expanded. -/
theorem Sweep.enter
    [DecidableEq α]
    (sweep :
      Sweep links start expand limit steps (node :: front) back seen
        frontier)
    (fresh : node ∉ seen)
    (further : steps + 1 < limit)
    (expands : expand node = .ok (links node)) :
    Sweep links start expand limit steps front
      (back ++ (links node).filter fun next => next ∉ node :: seen)
      (node :: seen) frontier where
  within := sweep.within
  inFront := fun other member =>
    sweep.inFront other (List.mem_cons_of_mem _ member)
  inBack := by
    intro other member
    rcases List.mem_append.1 member with earlier | later
    · exact sweep.inBack other earlier
    · exact
        ⟨further, node, sweep.inFront node List.mem_cons_self,
          List.mem_of_mem_filter later⟩
  inSeen := by
    intro other member
    rcases List.mem_cons.1 member with rfl | member
    · exact ball_succ.2 (Or.inr (sweep.inFront other List.mem_cons_self))
    · exact sweep.inSeen other member
  nearer := fun other inside =>
    List.mem_cons_of_mem _ (sweep.nearer other inside)
  here := by
    intro other reached
    rcases sweep.here other reached with seen | front
    · exact Or.inl (List.mem_cons_of_mem _ seen)
    · rcases List.mem_cons.1 front with rfl | front
      · exact Or.inl List.mem_cons_self
      · exact Or.inr front
  beyond := by
    intro _ other member target linked
    rcases List.mem_cons.1 member with rfl | member
    · by_cases known : target ∈ other :: seen
      · exact Or.inl known
      · right
        right
        exact
          List.mem_append_right _
            (List.mem_filter.2 ⟨linked, decide_eq_true known⟩)
    · rcases sweep.beyond further other member target linked with
        seen | front | back
      · exact Or.inl (List.mem_cons_of_mem _ seen)
      · rcases List.mem_cons.1 front with rfl | front
        · exact Or.inl List.mem_cons_self
        · exact Or.inr (Or.inl front)
      · exact Or.inr (Or.inr (List.mem_append_left _ back))
  expanded := by
    intro other member inside
    rcases List.mem_cons.1 member with rfl | member
    · exact ⟨_, expands⟩
    · exact sweep.expanded other member inside
  collected := by
    intro other
    rw [sweep.collected]
    constructor
    · rintro ⟨-, last, -⟩
      exact absurd last further.ne
    · rintro ⟨-, last, -⟩
      exact absurd last further.ne

/-- What a search that ends well has found. -/
structure Found
    (links : α → List α)
    (start : α)
    (expand : α → Except ε (List α))
    (limit : Nat)
    (frontier : List α) : Prop where
  expanded :
    ∀ node ∈ ball links start (limit - 1),
      ∃ nexts, expand node = .ok nexts
  frontier :
    ∀ node, node ∈ frontier ↔ node ∈ sphere links start (limit - 1)

/-- When the queue is empty, every node near enough has been seen. -/
theorem Sweep.found
    (sweep : Sweep links start expand limit steps [] [] seen frontier) :
    Found links start expand limit frontier := by
  have here : level links start steps ⊆ { node | node ∈ seen } := by
    intro node reached
    rcases sweep.here node reached with seen | front
    · exact seen
    · cases front
  rcases Nat.lt_or_ge (steps + 1) limit with further | last
  · have exhausted :
        level links start (steps + 1) ⊆ ball links start (steps + 1) := by
      rintro node ⟨source, reached, linked⟩
      rcases sweep.beyond further source (here reached) node linked with
        seen | front | back
      · exact sweep.inSeen node seen
      · cases front
      · cases back
    have all (radius : Nat) :
        ball links start radius ⊆ { node | node ∈ seen } := by
      rintro node ⟨count, -, reached⟩
      have near : node ∈ ball links start (steps + 1) := by
        rcases Nat.lt_or_ge count (steps + 1) with nearer | past
        · exact ⟨count, nearer, reached⟩
        · rcases Nat.exists_eq_add_of_le past with ⟨more, rfl⟩
          exact level_subset_ball exhausted more reached
      rcases ball_succ.1 near with earlier | level
      · exact sweep.nearer node earlier
      · exact here level
    constructor
    · intro node inside
      exact sweep.expanded node (all _ inside) inside
    · intro node
      rw [sweep.collected]
      constructor
      · rintro ⟨-, same, -⟩
        exact absurd same further.ne
      · rintro ⟨reached, outside⟩
        have past : steps + 1 ≤ limit - 1 := by omega
        rcases Nat.exists_eq_add_of_le past with ⟨more, same⟩
        rw [same] at reached outside
        exact
          absurd
            (ball_mono (Nat.le_add_right _ _)
              (level_subset_ball exhausted more reached))
            outside
  · have same : steps + 1 = limit := Nat.le_antisymm sweep.within last
    have radius : limit - 1 = steps := by omega
    constructor
    · intro node inside
      refine sweep.expanded node (sweep.nearer node ?_) inside
      rw [radius] at inside
      exact inside
    · intro node
      rw [sweep.collected, radius]
      constructor
      · rintro ⟨seen, -, outside⟩
        rcases ball_succ.1 (sweep.inSeen node seen) with inside | level
        · exact absurd inside outside
        · exact ⟨level, outside⟩
      · rintro ⟨reached, outside⟩
        exact ⟨here reached, same, outside⟩

theorem sum_filter_cons
    [DecidableEq α]
    {support : Finset α}
    (inside : node ∈ support)
    (fresh : node ∉ seen) :
    ∑ other ∈ support.filter fun other => other ∉ seen,
        (links other).length =
      (links node).length +
        ∑ other ∈ support.filter fun other => other ∉ node :: seen,
          (links other).length := by
  have erased :
      (support.filter fun other => other ∉ node :: seen) =
        (support.filter fun other => other ∉ seen).erase node := by
    ext other
    simp only [Finset.mem_filter, Finset.mem_erase, List.mem_cons,
      not_or]
    tauto
  rw [erased]
  exact
    (Finset.add_sum_erase _ (fun other => (links other).length)
      (Finset.mem_filter.2 ⟨inside, fresh⟩)).symm

theorem sum_filter_cons_le
    [DecidableEq α]
    (support : Finset α)
    (node : α)
    (seen : List α) :
    ∑ other ∈ support.filter fun other => other ∉ node :: seen,
        (links other).length ≤
      ∑ other ∈ support.filter fun other => other ∉ seen,
        (links other).length := by
  apply Finset.sum_le_sum_of_subset
  intro other member
  rw [Finset.mem_filter] at member ⊢
  exact ⟨member.1, fun known => member.2 (List.mem_cons_of_mem _ known)⟩

/-- How a search ends. -/
inductive Ends
    (links : α → List α)
    (start : α)
    (expand : α → Except ε (List α))
    (limit : Nat) : Except ε (List α) → Prop where
  | found
      {frontier : List α}
      (found : Found links start expand limit frontier) :
      Ends links start expand limit (.ok frontier)
  | failed
      {error : ε}
      {node : α}
      (near : node ∈ ball links start (limit - 1))
      (fails : expand node = .error error) :
      Ends links start expand limit (.error error)

/-- The queue of a sweep. -/
def queueOf
    (steps : Nat)
    (front back : List α) : List (α × Nat) :=
  front.map (fun node => (node, steps + 1)) ++
    back.map fun node => (node, steps + 2)

theorem search_ends
    [DecidableEq α]
    {support : Finset α}
    (expands :
      ∀ node ∈ ball links start (limit - 1),
        ∀ nexts,
          expand node = .ok nexts → nexts = links node ∧ node ∈ support)
    {bound : Nat}
    (sweep :
      Sweep links start expand limit steps front back seen frontier)
    (ample :
      remaining links support (queueOf steps front back) seen ≤ bound) :
    Ends links start expand limit
      (search expand limit bound (queueOf steps front back) seen
        frontier) := by
  induction bound generalizing steps front back seen frontier with
  | zero =>
      have empty : front = [] ∧ back = [] := by
        have length := (Nat.le_zero.1 ample)
        unfold remaining queueOf at length
        simp only [List.length_append, List.length_map,
          Nat.add_eq_zero_iff, List.length_eq_zero_iff] at length
        exact length.1
      rcases empty with ⟨rfl, rfl⟩
      exact .found sweep.found
  | succ bound hypothesis =>
      have step
          {steps : Nat}
          {node : α}
          {front back : List α}
          (sweep :
            Sweep links start expand limit steps (node :: front) back
              seen frontier)
          (ample :
            remaining links support (queueOf steps (node :: front) back)
              seen ≤ bound + 1) :
          Ends links start expand limit
            (search expand limit (bound + 1)
              (queueOf steps (node :: front) back) seen frontier) := by
        have unfolded :
            queueOf steps (node :: front) back =
              (node, steps + 1) :: queueOf steps front back :=
          rfl
        rw [unfolded] at ample ⊢
        unfold remaining at ample
        rw [List.length_cons] at ample
        rw [search]
        by_cases known : node ∈ seen
        · rw [if_pos known]
          apply hypothesis (sweep.again known)
          unfold remaining
          omega
        rw [if_neg known]
        have smaller :=
          @sum_filter_cons_le _ links _ support node seen
        by_cases last : steps + 1 = limit
        · rw [if_pos last]
          apply hypothesis (sweep.collect known last)
          unfold remaining
          omega
        rw [if_neg last]
        have further : steps + 1 < limit :=
          Nat.lt_of_le_of_ne sweep.within last
        have near : node ∈ ball links start (limit - 1) :=
          ⟨steps, by omega, sweep.inFront node List.mem_cons_self⟩
        cases expanded : expand node with
        | error error => exact .failed near expanded
        | ok nexts =>
            rcases expands node near nexts expanded with ⟨rfl, inside⟩
            have longer :
                queueOf steps front back ++
                    ((links node).filter fun next =>
                      next ∉ node :: seen).map
                      (fun next => (next, steps + 1 + 1)) =
                  queueOf steps front
                    (back ++
                      (links node).filter fun next =>
                        next ∉ node :: seen) := by
              unfold queueOf
              rw [List.map_append, List.append_assoc]
            simp only
            rw [longer]
            apply hypothesis (sweep.enter known further expanded)
            have split :=
              @sum_filter_cons _ links node seen _ support inside known
            have few :=
              List.length_filter_le
                (fun next => decide (next ∉ node :: seen)) (links node)
            rw [← longer]
            unfold remaining
            rw [List.length_append, List.length_map]
            omega
      cases front with
      | cons node front => exact step sweep ample
      | nil =>
          cases back with
          | nil => exact .found sweep.found
          | cons node back =>
              have further :=
                (sweep.inBack node List.mem_cons_self).1
              have same :
                  queueOf (steps + 1) (node :: back) [] =
                    queueOf steps [] (node :: back) := by
                unfold queueOf
                rw [List.map_nil, List.append_nil, List.map_nil,
                  List.nil_append]
              rw [← same] at ample ⊢
              exact step (sweep.advance further) ample

/-- A search from one node, with enough steps. -/
theorem search_from
    [DecidableEq α]
    {support : Finset α}
    (expands :
      ∀ node ∈ ball links start (limit - 1),
        ∀ nexts,
          expand node = .ok nexts → nexts = links node ∧ node ∈ support)
    (positive : 0 < limit) :
    Ends links start expand limit
      (search expand limit (enough links support) [(start, 1)] [] []) := by
  have begun : Sweep links start expand limit 0 [start] [] [] [] := by
    constructor
    case within => exact positive
    case inFront =>
        intro node member
        exact List.mem_singleton.1 member
    case inBack => exact fun _ member => by cases member
    case inSeen => exact fun _ member => by cases member
    case nearer =>
        rintro node ⟨count, within, -⟩
        cases within
    case here =>
        intro node reached
        exact Or.inr (List.mem_singleton.2 reached)
    case beyond => exact fun _ _ member => by cases member
    case expanded => exact fun _ member => by cases member
    case collected => simp
  refine search_ends expands begun ?_
  unfold remaining enough queueOf
  simp

/-- Nothing is collected twice. -/
theorem search_nodup
    [DecidableEq α]
    {bound : Nat}
    {queue : List (α × Nat)}
    {seen frontier result : List α}
    (nodup : frontier.Nodup)
    (collected : ∀ node ∈ frontier, node ∈ seen)
    (searched : search expand limit bound queue seen frontier = .ok result) :
    result.Nodup := by
  induction bound generalizing queue seen frontier with
  | zero =>
      cases searched
      exact nodup
  | succ bound hypothesis =>
      cases queue with
      | nil =>
          cases searched
          exact nodup
      | cons first queue =>
          rcases first with ⟨node, depth⟩
          rw [search] at searched
          split at searched
          · exact hypothesis nodup collected searched
          next fresh =>
          split at searched
          · refine hypothesis ?_ ?_ searched
            · rw [List.nodup_append]
              refine ⟨nodup, List.nodup_singleton _, ?_⟩
              rintro other earlier _ last rfl
              rw [List.mem_singleton.1 last] at earlier
              exact fresh (collected node earlier)
            · intro other member
              rcases List.mem_append.1 member with earlier | last
              · exact List.mem_cons_of_mem _ (collected other earlier)
              · rw [List.mem_singleton.1 last]
                exact List.mem_cons_self
          · split at searched
            · cases searched
            · exact
                hypothesis nodup
                  (fun other member =>
                    List.mem_cons_of_mem _ (collected other member))
                  searched

end Search

end BreadthFirst
