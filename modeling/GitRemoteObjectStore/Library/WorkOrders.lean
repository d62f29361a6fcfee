import GitRemoteObjectStore.Library.CallProgram

/-!
# Orders that are kept in the store they are about

An order names keys to be removed and is itself stored under a key.  Whoever
carries it out removes the named keys first and the order last, so that an
order still present says what may be left to do.  However many carry out the
orders, in whatever turns and however often they break off: once every order
is gone, what remains is determined.
-/

namespace CallProgram

/-- Which keys are orders, and what each of them removes beside itself. -/
structure WorkOrders (K : Type) where
  targets : K → Option (List K)
  apart :
    ∀ order list,
      targets order = some list → ∀ key ∈ list, targets key = none

namespace WorkOrders

variable
    {K V : Type}
    (orders : WorkOrders K)

/-- Orders and the keys they name. -/
def Doomed (key : K) : Prop :=
  ∃ order list,
    orders.targets order = some list ∧ (key = order ∨ key ∈ list)

/-- A store from which nothing is removed but by an order. -/
structure Progress (start state : K → Option V) : Prop where
  kept :
    ∀ key,
      state key = start key ∨ orders.Doomed key ∧ state key = none
  /-- An order goes last. -/
  last :
    ∀ order list,
      orders.targets order = some list →
        state order = none → ∀ key ∈ list, state key = none

/-- No order is left. -/
def Finished (state : K → Option V) : Prop :=
  ∀ order list,
    orders.targets order = some list → state order = none

variable
    {orders}
    {start state later : K → Option V}

theorem progress_start
    (present :
      ∀ order list,
        orders.targets order = some list → start order ≠ none) :
    orders.Progress start start where
  kept := fun _ => Or.inl rfl
  last := fun order list order? gone =>
    absurd gone (present order list order?)

/-- What is present is as it was. -/
theorem Progress.eq_start
    (progress : orders.Progress start state)
    {key : K}
    (present : state key ≠ none) :
    state key = start key := by
  rcases progress.kept key with same | ⟨-, gone⟩
  · exact same
  · exact absurd gone present

/-- What no order names is as it was. -/
theorem Progress.eq_of_not_doomed
    (progress : orders.Progress start state)
    {key : K}
    (spared : ¬ orders.Doomed key) :
    state key = start key := by
  rcases progress.kept key with same | ⟨doomed, -⟩
  · exact same
  · exact absurd doomed spared

/-- Without orders, everything named by one is gone. -/
theorem Progress.gone
    (progress : orders.Progress start state)
    (finished : orders.Finished state)
    {key : K}
    (doomed : orders.Doomed key) :
    state key = none := by
  rcases doomed with ⟨order, list, named, rfl | member⟩
  · exact finished _ _ named
  · exact progress.last order list named (finished _ _ named) key member

/-- Whoever carries out the orders leaves the same store. -/
theorem Progress.determined
    (progress : orders.Progress start state)
    (finished : orders.Finished state)
    (other : orders.Progress start later)
    (otherFinished : orders.Finished later) :
    later = state := by
  ext1 key
  by_cases doomed : orders.Doomed key
  · rw [progress.gone finished doomed, other.gone otherFinished doomed]
  · rw [progress.eq_of_not_doomed doomed, other.eq_of_not_doomed doomed]

section Removal

variable
    [DecidableEq K]
    {removed : K}
    (removal :
      ∀ key, later key = if key = removed then none else state key)
    (progress : orders.Progress start state)

include removal progress

/-- A removed key that an order names. -/
theorem Progress.remove
    (doomed : orders.Doomed removed)
    (emptied :
      ∀ list,
        orders.targets removed = some list →
          ∀ key ∈ list, state key = none) :
    orders.Progress start later where
  kept := by
    intro key
    rw [removal]
    split
    next same =>
        subst same
        exact Or.inr ⟨doomed, rfl⟩
    next => exact progress.kept key
  last := by
    intro order list named gone key member
    rw [removal]
    split
    · rfl
    rw [removal] at gone
    split at gone
    next same =>
        subst same
        exact emptied list named key member
    next => exact progress.last order list named gone key member

/-- Removing what an order names. -/
theorem Progress.removeTarget
    {order : K}
    {list : List K}
    (named : orders.targets order = some list)
    (member : removed ∈ list) :
    orders.Progress start later := by
  apply progress.remove removal ⟨order, list, named, Or.inr member⟩
  intro other own
  rw [orders.apart order list named removed member] at own
  cases own

/-- Removing an order that has been carried out. -/
theorem Progress.removeOrder
    {list : List K}
    (named : orders.targets removed = some list)
    (emptied : ∀ key ∈ list, state key = none) :
    orders.Progress start later := by
  apply progress.remove removal ⟨removed, list, named, Or.inl rfl⟩
  intro other own
  rw [named] at own
  cases own
  exact emptied

end Removal

end WorkOrders

end CallProgram
