import Mathlib.Data.List.Basic

/-!
# Bounded reads up to a terminator

A reader takes items from its input until a terminator, the end of the input
or a bound on their number, whichever comes first.
-/

namespace BoundedRead

variable {α : Type} [DecidableEq α]

/-- What is taken, the terminator included, and what is left. -/
def readUntil (terminator : α) : Nat → List α → List α × List α
  | 0, input => ([], input)
  | _ + 1, [] => ([], [])
  | bound + 1, item :: input =>
      if item = terminator then ([item], input)
      else
        let further := readUntil terminator bound input
        (item :: further.1, further.2)

variable {terminator : α} {bound : Nat} {input : List α}

/-- Nothing is lost. -/
theorem readUntil_append :
    (readUntil terminator bound input).1 ++
        (readUntil terminator bound input).2 =
      input := by
  induction bound generalizing input with
  | zero => rfl
  | succ bound hypothesis =>
      cases input with
      | nil => rfl
      | cons item input =>
          rw [readUntil]
          split
          · rfl
          · rw [List.cons_append, hypothesis]

theorem length_readUntil_le :
    (readUntil terminator bound input).1.length ≤ bound := by
  induction bound generalizing input with
  | zero => exact Nat.le_refl 0
  | succ bound hypothesis =>
      cases input with
      | nil => exact Nat.zero_le _
      | cons item input =>
          rw [readUntil]
          split
          · exact Nat.succ_le_succ (Nat.zero_le bound)
          · exact Nat.succ_le_succ hypothesis

/-- A read that fits in the bound takes everything up to the terminator. -/
theorem readUntil_terminated
    {front : List α}
    (free : terminator ∉ front)
    (fits : front.length < bound)
    (rest : List α) :
    readUntil terminator bound (front ++ terminator :: rest) =
      (front ++ [terminator], rest) := by
  induction front generalizing bound with
  | nil =>
      cases bound with
      | zero => cases fits
      | succ bound => rw [List.nil_append, readUntil, if_pos rfl]; rfl
  | cons item front hypothesis =>
      cases bound with
      | zero => cases fits
      | succ bound =>
          rw [List.mem_cons, not_or] at free
          rw [List.cons_append, readUntil, if_neg (Ne.symm free.1),
            hypothesis free.2 (Nat.lt_of_succ_lt_succ fits)]
          rfl

/-- Without a terminator an input that fits is taken whole. -/
theorem readUntil_all
    (free : terminator ∉ input)
    (fits : input.length ≤ bound) :
    readUntil terminator bound input = (input, []) := by
  induction input generalizing bound with
  | nil => cases bound <;> rfl
  | cons item input hypothesis =>
      cases bound with
      | zero => cases fits
      | succ bound =>
          rw [List.mem_cons, not_or] at free
          rw [readUntil, if_neg (Ne.symm free.1),
            hypothesis free.2 (Nat.le_of_succ_le_succ fits)]

/-- A read without the terminator stops at the bound or at the end. -/
theorem readUntil_cases :
    (∃ front,
        (readUntil terminator bound input).1 = front ++ [terminator] ∧
          terminator ∉ front) ∨
      terminator ∉ (readUntil terminator bound input).1 ∧
        ((readUntil terminator bound input).1.length = bound ∨
          (readUntil terminator bound input).2 = []) := by
  induction bound generalizing input with
  | zero => exact Or.inr ⟨List.not_mem_nil, Or.inl rfl⟩
  | succ bound hypothesis =>
      cases input with
      | nil => exact Or.inr ⟨List.not_mem_nil, Or.inr rfl⟩
      | cons item input =>
          rw [readUntil]
          split
          next same =>
              subst same
              exact Or.inl ⟨[], rfl, List.not_mem_nil⟩
          next other =>
              rcases @hypothesis input with
                ⟨front, taken, free⟩ | ⟨free, stopped⟩
              · left
                refine ⟨item :: front, ?_, ?_⟩
                · simp only [taken, List.cons_append]
                · rw [List.mem_cons, not_or]
                  exact ⟨Ne.symm other, free⟩
              · right
                constructor
                · rw [List.mem_cons, not_or]
                  exact ⟨Ne.symm other, free⟩
                · refine stopped.imp ?_ id
                  intro full
                  rw [List.length_cons, full]

end BoundedRead
