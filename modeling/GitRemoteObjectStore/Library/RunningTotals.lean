import Mathlib.Algebra.BigOperators.Group.List.Basic
import Mathlib.Algebra.GroupWithZero.Nat
import Mathlib.Data.List.Basic

/-!
# Running totals

Amounts come in one after the other, and each that is not zero is entered
together with the total so far.  The total stops at a limit; as long as the
amounts stay within it, the entries are the running sums, they grow strictly,
and the last of them is the sum of all amounts.
-/

namespace RunningTotals

/-- The entries for amounts that come in when the total is `soFar`. -/
def entries (limit : Nat) : Nat → List Nat → List (Nat × Nat)
  | _, [] => []
  | soFar, amount :: rest =>
      if amount = 0 then entries limit soFar rest
      else
        (min (soFar + amount) limit, amount) ::
          entries limit (min (soFar + amount) limit) rest

/-- Each total is the one before and the amount entered with it. -/
def Running : Nat → List (Nat × Nat) → Prop
  | _, [] => True
  | soFar, (total, amount) :: rest => total = soFar + amount ∧ Running total rest

variable {limit soFar : Nat} {amounts : List Nat}

/-- The total that an entry was made with. -/
def lastTotal (soFar : Nat) (entered : List (Nat × Nat)) : Nat :=
  (entered.getLast?.map Prod.fst).getD soFar

theorem entries_zero (rest : List Nat) :
    entries limit soFar (0 :: rest) = entries limit soFar rest := by
  rw [entries, if_pos rfl]

theorem entries_cons
    {amount : Nat}
    (positive : amount ≠ 0)
    (within : soFar + amount ≤ limit)
    (rest : List Nat) :
    entries limit soFar (amount :: rest) =
      (soFar + amount, amount) :: entries limit (soFar + amount) rest := by
  rw [entries, if_neg positive, Nat.min_eq_left within]

theorem running_entries (within : soFar + amounts.sum ≤ limit) :
    Running soFar (entries limit soFar amounts) := by
  induction amounts generalizing soFar with
  | nil => trivial
  | cons amount rest hypothesis =>
      rw [List.sum_cons] at within
      by_cases zero : amount = 0
      · subst zero
        rw [entries_zero]
        exact hypothesis (by omega)
      · rw [entries_cons zero (by omega)]
        exact ⟨rfl, hypothesis (by omega)⟩

theorem increasing_entries (within : soFar + amounts.sum ≤ limit) :
    (soFar :: (entries limit soFar amounts).map Prod.fst).Pairwise
      (· < ·) := by
  induction amounts generalizing soFar with
  | nil => exact List.pairwise_singleton _ _
  | cons amount rest hypothesis =>
      rw [List.sum_cons] at within
      by_cases zero : amount = 0
      · subst zero
        rw [entries_zero]
        exact hypothesis (by omega)
      · rw [entries_cons zero (by omega), List.map_cons]
        have later :
            ((soFar + amount) ::
                (entries limit (soFar + amount) rest).map
                  Prod.fst).Pairwise (· < ·) :=
          hypothesis (by omega)
        rw [List.pairwise_cons]
        constructor
        · intro total entered
          rcases List.mem_cons.1 entered with rfl | further
          · exact Nat.lt_add_of_pos_right (Nat.pos_of_ne_zero zero)
          · have above := (List.pairwise_cons.1 later).1 total further
            omega
        · exact later

theorem lastTotal_cons
    (total amount : Nat)
    (rest : List (Nat × Nat)) :
    lastTotal soFar ((total, amount) :: rest) = lastTotal total rest := by
  rw [lastTotal, lastTotal, List.getLast?_cons]
  cases rest.getLast? with
  | none => rfl
  | some entry => rfl

theorem lastTotal_entries (within : soFar + amounts.sum ≤ limit) :
    lastTotal soFar (entries limit soFar amounts) =
      soFar + amounts.sum := by
  induction amounts generalizing soFar with
  | nil => rfl
  | cons amount rest hypothesis =>
      rw [List.sum_cons] at within ⊢
      by_cases zero : amount = 0
      · subst zero
        rw [entries_zero, hypothesis (by omega)]
        omega
      · rw [entries_cons zero (by omega), lastTotal_cons,
          hypothesis (by omega)]
        omega

theorem entries_eq_nil_iff :
    entries limit soFar amounts = [] ↔ amounts.sum = 0 := by
  induction amounts generalizing soFar with
  | nil => exact iff_of_true rfl rfl
  | cons amount rest hypothesis =>
      rw [List.sum_cons]
      by_cases zero : amount = 0
      · subst zero
        rw [entries_zero, hypothesis, Nat.zero_add]
      · rw [entries, if_neg zero]
        exact iff_of_false nofun (by omega)

/-! ## Forwarding -/

/-- The amounts waiting to be entered, and what has been entered so far. -/
structure Forward where
  queue : List Nat := []
  total : Nat := 0
  entered : List (Nat × Nat) := []

namespace Forward

def send (forward : Forward) (amount : Nat) : Forward :=
  { forward with queue := forward.queue ++ [amount] }

/-- Enter the first of the amounts that wait. -/
def receive (limit : Nat) (forward : Forward) : Forward :=
  match forward.queue with
  | [] => forward
  | amount :: rest =>
      if amount = 0 then { forward with queue := rest }
      else
        { queue := rest
          total := min (forward.total + amount) limit
          entered :=
            forward.entered ++
              [(min (forward.total + amount) limit, amount)] }

/-- Enter everything that waits. -/
def drain (limit : Nat) (forward : Forward) : Forward :=
  (receive limit)^[forward.queue.length] forward

/-- What has been sent so far, whether it has been entered or not. -/
def Sent (limit : Nat) (forward : Forward) (sent : List Nat) : Prop :=
  ∀ more,
    forward.entered ++
        entries limit forward.total (forward.queue ++ more) =
      entries limit 0 (sent ++ more)

variable {forward : Forward} {sent : List Nat}

theorem sent_initial : Sent limit {} [] :=
  fun _ => rfl

theorem Sent.send
    (so : forward.Sent limit sent)
    (amount : Nat) :
    (forward.send amount).Sent limit (sent ++ [amount]) := by
  intro more
  rw [Forward.send, List.append_assoc, List.append_assoc]
  exact so ([amount] ++ more)

theorem Sent.receive (so : forward.Sent limit sent) :
    (forward.receive limit).Sent limit sent := by
  intro more
  rw [← so more, Forward.receive]
  cases waiting : forward.queue with
  | nil => simp [waiting]
  | cons amount rest =>
      rw [List.cons_append, entries]
      by_cases zero : amount = 0
      · simp [zero]
      · simp [zero]

theorem length_receive (forward : Forward) :
    (forward.receive limit).queue.length = forward.queue.length - 1 := by
  rw [receive]
  cases waiting : forward.queue with
  | nil => simp [waiting]
  | cons amount rest =>
      by_cases zero : amount = 0 <;> simp [zero]

/-- Whenever the amounts are entered, in the end they are entered in order. -/
theorem Sent.entered_drain (so : forward.Sent limit sent) :
    (forward.drain limit).entered = entries limit 0 sent := by
  rw [drain]
  generalize count : forward.queue.length = length
  induction length generalizing forward with
  | zero =>
      have whole := so []
      rw [List.length_eq_zero_iff.1 count, List.append_nil,
        List.append_nil, entries, List.append_nil] at whole
      exact whole
  | succ length hypothesis =>
      rw [Function.iterate_succ_apply]
      apply hypothesis so.receive
      rw [length_receive, count]
      rfl

end Forward

end RunningTotals
