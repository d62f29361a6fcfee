import Mathlib.Data.List.Basic
import Mathlib.Data.List.TakeWhile

/-!
# Lists read as separated segments

A list over an alphabet with a distinguished separator is read as a path:
its last segment, what stands before that, and what is left after removing a
known beginning or end.
-/

namespace Separated

variable {α : Type} [DecidableEq α]

/-- What follows a given beginning. -/
def stripPrefix (beginning whole : List α) : Option (List α) :=
  if beginning <+: whole then some (whole.drop beginning.length) else none

/-- What precedes a given end. -/
def stripSuffix (ending whole : List α) : Option (List α) :=
  if ending <:+ whole then
    some (whole.take (whole.length - ending.length))
  else none

theorem stripPrefix_eq_some
    {beginning whole rest : List α} :
    stripPrefix beginning whole = some rest ↔
      whole = beginning ++ rest := by
  unfold stripPrefix
  split
  next found =>
      rcases found with ⟨tail, rfl⟩
      simp [eq_comm]
  next missing =>
      simp only [reduceCtorEq, false_iff]
      rintro rfl
      exact missing (List.prefix_append _ _)

theorem stripSuffix_eq_some
    {ending whole rest : List α} :
    stripSuffix ending whole = some rest ↔ whole = rest ++ ending := by
  unfold stripSuffix
  split
  next found =>
      rcases found with ⟨front, rfl⟩
      simp [eq_comm]
  next missing =>
      simp only [reduceCtorEq, false_iff]
      rintro rfl
      exact missing (List.suffix_append _ _)

/-- The part after the last separator; the whole list when there is none. -/
def lastSegment (separator : α) (path : List α) : List α :=
  (path.reverse.takeWhile (· ≠ separator)).reverse

/-- Split at the last separator. -/
def rsplitOnce (separator : α) (path : List α) :
    Option (List α × List α) :=
  if separator ∈ path then
    some
      (path.take (path.length - (lastSegment separator path).length - 1),
        lastSegment separator path)
  else none

theorem lastSegment_of_not_mem
    {separator : α}
    {path : List α}
    (absent : separator ∉ path) :
    lastSegment separator path = path := by
  unfold lastSegment
  rw [List.takeWhile_eq_self_iff.2]
  · simp
  · intro item member
    have different : item ≠ separator := by
      rintro rfl
      exact absent (List.mem_reverse.1 member)
    simpa using different

@[simp]
theorem lastSegment_append
    {separator : α}
    (front : List α)
    {last : List α}
    (absent : separator ∉ last) :
    lastSegment separator (front ++ separator :: last) = last := by
  have whole := lastSegment_of_not_mem absent
  unfold lastSegment at whole ⊢
  have stop :
      ((front ++ separator :: last).reverse.takeWhile
        (· ≠ separator)) =
        last.reverse.takeWhile (· ≠ separator) := by
    have all : ∀ item ∈ last.reverse, decide (item ≠ separator) = true := by
      intro item member
      have different : item ≠ separator := by
        rintro rfl
        exact absent (List.mem_reverse.1 member)
      simpa using different
    rw [List.reverse_append, List.reverse_cons, List.append_assoc,
      List.takeWhile_append_of_pos all]
    simp only [List.cons_append, List.nil_append, ne_eq, not_true_eq_false,
      decide_false, Bool.false_eq_true, not_false_eq_true,
      List.takeWhile_cons_of_neg, List.append_nil]
    rw [List.takeWhile_eq_self_iff.2 all]
  rw [stop, whole]

@[simp]
theorem rsplitOnce_append
    {separator : α}
    (front : List α)
    {last : List α}
    (absent : separator ∉ last) :
    rsplitOnce separator (front ++ separator :: last) =
      some (front, last) := by
  have member : separator ∈ front ++ separator :: last := by simp
  unfold rsplitOnce
  rw [if_pos member, lastSegment_append front absent]
  have cut :
      (front ++ separator :: last).length - last.length - 1 =
        front.length := by
    simp only [List.length_append, List.length_cons]
    omega
  rw [cut]
  simp

/-- A path determines what stands before its last segment, and that. -/
theorem append_separator_inj
    {separator : α}
    {front front' last last' : List α}
    (absent : separator ∉ last)
    (absent' : separator ∉ last') :
    front ++ separator :: last = front' ++ separator :: last' ↔
      front = front' ∧ last = last' := by
  constructor
  · intro equal
    have split := congrArg (rsplitOnce separator) equal
    rw [rsplitOnce_append front absent, rsplitOnce_append front' absent']
      at split
    simpa using split
  · rintro ⟨rfl, rfl⟩
    rfl

/-- Every path with a separator is its front, a separator, its last. -/
theorem exists_last
    {separator : α}
    {path : List α}
    (member : separator ∈ path) :
    ∃ front last,
      path = front ++ separator :: last ∧ separator ∉ last := by
  induction path with
  | nil => simp at member
  | cons item rest hypothesis =>
      by_cases inner : separator ∈ rest
      · rcases hypothesis inner with ⟨front, last, rfl, absent⟩
        exact ⟨item :: front, last, rfl, absent⟩
      · rcases List.mem_cons.1 member with rfl | later
        · exact ⟨[], rest, rfl, inner⟩
        · exact absurd later inner

/-- No segment has the separator in it. -/
theorem not_mem_of_mem_splitOn
    {separator : α}
    {path segment : List α}
    (member : segment ∈ path.splitOn separator) :
    separator ∉ segment := by
  induction path generalizing segment with
  | nil =>
      rw [List.splitOn_nil, List.mem_singleton] at member
      subst member
      exact List.not_mem_nil
  | cons first rest hypothesis =>
      rw [List.splitOn_cons_eq_if_modifyHead] at member
      by_cases here : first = separator
      · rw [if_pos (by simpa using here), List.mem_cons] at member
        rcases member with rfl | later
        · exact List.not_mem_nil
        · exact hypothesis later
      · rw [if_neg (by simpa using here)] at member
        cases shape : rest.splitOn separator with
        | nil => exact absurd shape (List.splitOn_ne_nil _ _)
        | cons head tail =>
            rw [shape, List.modifyHead_cons, List.mem_cons] at member
            rcases member with rfl | later
            · rw [List.mem_cons, not_or]
              refine ⟨Ne.symm here, hypothesis ?_⟩
              rw [shape]
              exact List.mem_cons_self
            · apply hypothesis
              rw [shape]
              exact List.mem_cons_of_mem _ later

/-- Splitting at every separator ends with the last segment. -/
theorem splitOn_append_last
    {separator : α}
    (front : List α)
    {last : List α}
    (absent : separator ∉ last) :
    (front ++ separator :: last).splitOn separator =
      front.splitOn separator ++ [last] := by
  rw [List.splitOn_append_cons_self, List.splitOn_eq_singleton absent]

/--
A directory followed by a separator begins a path exactly when it is the
path's front or begins that front.
-/
theorem separator_prefix_iff
    {separator : α}
    {directory front last : List α}
    (absent : separator ∉ last) :
    directory ++ [separator] <+: front ++ separator :: last ↔
      directory = front ∨ directory ++ [separator] <+: front := by
  constructor
  · rintro ⟨rest, equal⟩
    rw [List.append_assoc, List.singleton_append] at equal
    by_cases inside : separator ∈ rest
    · rcases exists_last inside with ⟨middle, tail, rfl, tailAbsent⟩
      have same :
          directory ++ separator :: middle = front ∧ tail = last := by
        apply (append_separator_inj tailAbsent absent).1
        simpa using equal
      exact Or.inr ⟨middle, by simpa using same.1⟩
    · exact Or.inl ((append_separator_inj inside absent).1 equal).1
  · rintro (rfl | ⟨rest, rfl⟩)
    · exact ⟨last, by simp⟩
    · exact ⟨rest ++ separator :: last, by simp⟩

omit [DecidableEq α] in
/-- A path determines what stands before its first separator, and after. -/
theorem separator_append_inj
    {separator : α}
    {front front' rest rest' : List α}
    (absent : separator ∉ front)
    (absent' : separator ∉ front') :
    front ++ separator :: rest = front' ++ separator :: rest' ↔
      front = front' ∧ rest = rest' := by
  constructor
  · intro same
    rcases List.append_eq_append_iff.1 same with
      ⟨middle, rfl, tail⟩ | ⟨middle, rfl, tail⟩
    · cases middle with
      | nil => simpa using tail
      | cons item others =>
          cases tail
          simp at absent'
    · cases middle with
      | nil => simpa using tail.symm
      | cons item others =>
          cases tail
          simp at absent
  · rintro ⟨rfl, rfl⟩
    rfl

/-- The parts one after the other, each ended by a terminator. -/
def terminated (terminator : α) (parts : List (List α)) : List α :=
  parts.flatMap fun part => part ++ [terminator]

omit [DecidableEq α] in
@[simp]
theorem terminated_cons
    (terminator : α)
    (part : List α)
    (parts : List (List α)) :
    terminated terminator (part :: parts) =
      part ++ terminator :: terminated terminator parts := by
  simp [terminated]

omit [DecidableEq α] in
@[simp]
theorem terminated_append
    (terminator : α)
    (parts more : List (List α)) :
    terminated terminator (parts ++ more) =
      terminated terminator parts ++ terminated terminator more :=
  List.flatMap_append

omit [DecidableEq α] in
/-- Parts without the terminator can be told apart again. -/
theorem terminated_inj
    {terminator : α}
    {parts parts' : List (List α)}
    (free : ∀ part ∈ parts, terminator ∉ part)
    (free' : ∀ part ∈ parts', terminator ∉ part)
    (same : terminated terminator parts = terminated terminator parts') :
    parts = parts' := by
  induction parts generalizing parts' with
  | nil =>
      cases parts' with
      | nil => rfl
      | cons part rest => simp [terminated] at same
  | cons part rest hypothesis =>
      cases parts' with
      | nil => simp [terminated] at same
      | cons part' rest' =>
          rw [terminated_cons, terminated_cons] at same
          rcases
            (separator_append_inj (free part (by simp))
              (free' part' (by simp))).1 same with ⟨rfl, others⟩
          rw [hypothesis (fun other member => free other (by simp [member]))
            (fun other member => free' other (by simp [member])) others]

/-- Splitting at the terminators gives the parts, and nothing after them. -/
theorem splitOn_terminated
    {terminator : α}
    {parts : List (List α)}
    (free : ∀ part ∈ parts, terminator ∉ part) :
    (terminated terminator parts).splitOn terminator = parts ++ [[]] := by
  induction parts with
  | nil => rfl
  | cons part rest hypothesis =>
      rw [terminated_cons,
        List.splitOn_append_cons_self_of_not_mem (free part (by simp)),
        hypothesis fun other member => free other (by simp [member]),
        List.cons_append]

end Separated
