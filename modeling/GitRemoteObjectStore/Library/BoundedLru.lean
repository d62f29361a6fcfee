import Mathlib.Algebra.GroupWithZero.Nat
import Mathlib.Data.List.AList

/-!
# Byte-bounded LRU caches

A cache of entries of different sizes, in order of recency, within a capacity.
Looking a key up makes its entry the most recent one; an insertion evicts the
least recent entries, and no more of them than the new entry needs.
-/

namespace BoundedLru

variable
    {Key Value : Type}
    [DecidableEq Key]
    (size : Value → Nat)
    (capacity : Nat)

/-- What is cached, the least recently used first. -/
abbrev Entries (Key Value : Type) := List (Sigma fun _ : Key => Value)

/-- The sizes of all entries together. -/
def weight (entries : Entries Key Value) : Nat :=
  (entries.map fun entry => size entry.2).sum

/-- Drop old entries until there is room. -/
def makeRoom (need : Nat) : Entries Key Value → Entries Key Value
  | [] => []
  | oldest :: newer =>
      if weight size (oldest :: newer) + need ≤ capacity then
        oldest :: newer
      else makeRoom need newer

/-- Look a key up and make its entry the most recent one. -/
def get (key : Key) (entries : Entries Key Value) :
    Option Value × Entries Key Value :=
  match entries.dlookup key with
  | none => (none, entries)
  | some value => (some value, entries.kerase key ++ [⟨key, value⟩])

/-- Replace the entry of a key; one larger than the capacity is not kept. -/
def insert (key : Key) (value : Value) (entries : Entries Key Value) :
    Entries Key Value :=
  if capacity < size value then entries.kerase key
  else
    makeRoom size capacity (size value) (entries.kerase key) ++
      [⟨key, value⟩]

/-! ## Weights -/

omit [DecidableEq Key] in
@[simp]
theorem weight_nil : weight size ([] : Entries Key Value) = 0 := rfl

omit [DecidableEq Key] in
@[simp]
theorem weight_cons (entry : Sigma fun _ : Key => Value)
    (entries : Entries Key Value) :
    weight size (entry :: entries) = size entry.2 + weight size entries := by
  simp [weight]

omit [DecidableEq Key] in
@[simp]
theorem weight_append (left right : Entries Key Value) :
    weight size (left ++ right) = weight size left + weight size right := by
  simp [weight]

omit [DecidableEq Key] in
theorem weight_perm
    {left right : Entries Key Value}
    (same : left.Perm right) :
    weight size left = weight size right :=
  (same.map _).sum_nat

/-- An entry that is found can be put in front. -/
theorem perm_cons_kerase
    {key : Key}
    {value : Value}
    {entries : Entries Key Value}
    (found : entries.dlookup key = some value) :
    List.Perm (⟨key, value⟩ :: entries.kerase key) entries := by
  induction entries with
  | nil => cases found
  | cons entry rest hypothesis =>
      by_cases same : key = entry.1
      · rcases entry with ⟨other, stored⟩
        cases same
        rw [List.dlookup_cons_eq] at found
        cases found
        rw [List.kerase_cons_eq rfl]
      · rw [List.dlookup_cons_ne _ _ same] at found
        rw [List.kerase_cons_ne same]
        exact (List.Perm.swap _ _ _).trans ((hypothesis found).cons entry)

/-- Taking an entry out takes its size out. -/
theorem weight_kerase
    {key : Key}
    {value : Value}
    {entries : Entries Key Value}
    (found : entries.dlookup key = some value) :
    weight size (entries.kerase key) + size value =
      weight size entries := by
  rw [← weight_perm size (perm_cons_kerase found), weight_cons]
  exact Nat.add_comm _ _

theorem weight_kerase_le (key : Key) (entries : Entries Key Value) :
    weight size (entries.kerase key) ≤ weight size entries := by
  cases found : entries.dlookup key with
  | none =>
      rw [List.kerase_of_notMem_keys (List.dlookup_eq_none.1 found)]
  | some value =>
      rw [← weight_kerase size found]
      exact Nat.le_add_right _ _

/-! ## What is evicted -/

variable {size capacity}

omit [DecidableEq Key] in
/-- Only the least recent entries go. -/
theorem makeRoom_suffix (need : Nat) (entries : Entries Key Value) :
    makeRoom size capacity need entries <:+ entries := by
  induction entries with
  | nil => exact List.suffix_refl []
  | cons oldest newer hypothesis =>
      rw [makeRoom]
      split
      · exact List.suffix_refl _
      · exact hypothesis.trans (List.suffix_cons _ _)

omit [DecidableEq Key] in
/-- There is room afterwards for what fits at all. -/
theorem makeRoom_fits
    {need : Nat}
    (small : need ≤ capacity)
    (entries : Entries Key Value) :
    weight size (makeRoom size capacity need entries) + need ≤
      capacity := by
  induction entries with
  | nil => simpa [makeRoom] using small
  | cons oldest newer hypothesis =>
      rw [makeRoom]
      split
      next fits => exact fits
      next => exact hypothesis

omit [DecidableEq Key] in
/-- No more go than is needed. -/
theorem suffix_makeRoom
    {need : Nat}
    {kept entries : Entries Key Value}
    (recent : kept <:+ entries)
    (fits : weight size kept + need ≤ capacity) :
    kept <:+ makeRoom size capacity need entries := by
  induction entries with
  | nil => exact recent
  | cons oldest newer hypothesis =>
      rw [makeRoom]
      split
      next => exact recent
      next heavy =>
          rcases List.suffix_cons_iff.1 recent with rfl | older
          · exact absurd fits heavy
          · exact hypothesis older

variable (size capacity)

/-- What an insertion leaves: nothing for the key and all others when the
entry is too large, else the new entry after as many recent ones as fit. -/
structure Inserts
    (key : Key)
    (value : Value)
    (before after : Entries Key Value) : Prop where
  oversize : capacity < size value → after = before.kerase key
  recent : size value ≤ capacity →
    ∃ kept, after = kept ++ [⟨key, value⟩] ∧
      kept <:+ before.kerase key ∧
      weight size kept + size value ≤ capacity ∧
      ∀ other, other <:+ before.kerase key →
        weight size other + size value ≤ capacity → other <:+ kept

theorem insert_inserts (key : Key) (value : Value)
    (entries : Entries Key Value) :
    Inserts size capacity key value entries
      (insert size capacity key value entries) where
  oversize heavy := by rw [insert, if_pos heavy]
  recent small := by
    rw [insert, if_neg (Nat.not_lt.2 small)]
    exact
      ⟨_, rfl, makeRoom_suffix _ _, makeRoom_fits small _,
        fun _ recent fits => suffix_makeRoom recent fits⟩

/-! ## Weights of the results -/

theorem weight_get (key : Key) (entries : Entries Key Value) :
    weight size (get key entries).2 = weight size entries := by
  rw [get]
  cases found : entries.dlookup key with
  | none => rfl
  | some value =>
      rw [← weight_kerase size found]
      simp

theorem weight_insert_le (key : Key) (value : Value)
    (entries : Entries Key Value) :
    weight size (insert size capacity key value entries) ≤
      weight size entries + size value := by
  have lighter := weight_kerase_le size key entries
  rw [insert]
  split
  · exact Nat.le_trans lighter (Nat.le_add_right _ _)
  · have recent :
        makeRoom size capacity (size value) (entries.kerase key) <:+
          entries.kerase key :=
      makeRoom_suffix _ _
    rcases recent with ⟨dropped, whole⟩
    rw [← whole, weight_append] at lighter
    rw [weight_append, weight_cons, weight_nil]
    dsimp only
    omega

end BoundedLru
