import Mathlib.Data.Set.Basic
import Mathlib.Order.Defs.Unbundled
import GitRemoteObjectStore.Library.Refinement

/-!
# Registers set by comparison

Each name has a register that is empty or holds a value.  A register advances
to a value ahead of the one that was seen in it, provided it still holds that
one; it can also be replaced and cleared outright.  As long as a register is
not replaced or cleared, what was written to it is never lost, and of two
advances that have seen the same only the first is made.
-/

namespace Registers

open CallProgram

variable {κ ν : Type}

/-- What one step does to the registers. -/
inductive Event (κ ν : Type) where
  | quiet
  | advance (name : κ) (seen : Option ν) (value : ν)
  | replace (name : κ) (value : ν)
  | clear (names : Set κ)

/-- One register is set and the others are as before. -/
structure Sets
    (name : κ)
    (value : ν)
    (before after : κ → Option ν) : Prop where
  set : after name = some value
  others : ∀ other, other ≠ name → after other = before other

/-- How an event turns the registers. -/
def Event.Turns
    (ahead : ν → ν → Prop)
    (before after : κ → Option ν) : Event κ ν → Prop
  | .quiet => after = before
  | .advance name seen value =>
      before name = seen ∧
        (∀ old, seen = some old → ahead old value) ∧
          Sets name value before after
  | .replace name value => Sets name value before after
  | .clear names =>
      (∀ name ∈ names, after name = none) ∧
        ∀ name, name ∉ names → after name = before name

/-- An event writes a value to a register. -/
def Event.Writes (name : κ) (value : ν) : Event κ ν → Prop
  | .advance other _ written => other = name ∧ written = value
  | .replace other written => other = name ∧ written = value
  | _ => False

/-- An event may lose what a register holds. -/
def Event.Loses (name : κ) : Event κ ν → Prop
  | .replace other _ => other = name
  | .clear names => name ∈ names
  | _ => False

/-- The registers after a list of events. -/
abbrev History
    (ahead : ν → ν → Prop)
    (start : κ → Option ν) :
    List (Event κ ν) → (κ → Option ν) → Prop :=
  Turned (fun event before after => event.Turns ahead before after) start

variable
    {ahead : ν → ν → Prop}
    {before after start : κ → Option ν}
    {event : Event κ ν}
    {name : κ}

theorem Event.Turns.written
    {value : ν}
    (turned : event.Turns ahead before after)
    (writes : event.Writes name value) :
    after name = some value := by
  cases event with
  | quiet => exact writes.elim
  | advance other seen written =>
      rcases writes with ⟨rfl, rfl⟩
      exact turned.2.2.set
  | replace other written =>
      rcases writes with ⟨rfl, rfl⟩
      exact turned.set
  | clear names => exact writes.elim

section Ordered

variable [IsPreorder ν ahead]

/-- What an event does not lose stays, or moves ahead. -/
theorem Event.Turns.kept
    {old : ν}
    (turned : event.Turns ahead before after)
    (spared : ¬ event.Loses name)
    (held : before name = some old) :
    ∃ value, after name = some value ∧ ahead old value := by
  have still
      (same : after name = before name) :
      ∃ value, after name = some value ∧ ahead old value :=
    ⟨old, same.trans held, refl_of ahead old⟩
  cases event with
  | quiet => exact still (congrFun turned name)
  | advance other seen value =>
      rcases turned with ⟨seeing, moves, sets⟩
      by_cases same : name = other
      · subst same
        exact ⟨value, sets.set, moves old (seeing.symm.trans held)⟩
      · exact still (sets.others name same)
  | replace other value =>
      exact still (turned.others name (Ne.symm spared))
  | clear names => exact still (turned.2 name spared)

/-- What no event of a history loses stays, or moves ahead. -/
theorem kept_of_history
    {events : List (Event κ ν)}
    (history : History ahead start events after)
    (spared : ∀ event ∈ events, ¬ event.Loses name)
    {old : ν}
    (held : start name = some old) :
    ∃ value, after name = some value ∧ ahead old value := by
  induction history with
  | nil => exact ⟨old, held, refl_of ahead old⟩
  | @snoc events event middle after earlier turned hypothesis =>
      rcases
        hypothesis fun event member =>
          spared event (List.mem_append_left _ member) with
        ⟨value, holds, moved⟩
      rcases
        turned.kept
          (spared event (List.mem_append_right _ List.mem_cons_self))
          holds with
        ⟨later, found, further⟩
      exact ⟨later, found, trans_of ahead moved further⟩

/--
Of two advances of a register that have seen the same, with nothing lost in
between, the first did not move it.
-/
theorem raced_of_history
    [Std.Antisymm ahead]
    {first second : κ → Option ν}
    {events : List (Event κ ν)}
    {seen : Option ν}
    {value other : ν}
    (advanced :
      (Event.advance name seen value).Turns ahead before first)
    (history : History ahead first events second)
    (spared : ∀ event ∈ events, ¬ event.Loses name)
    (again : (Event.advance name seen other).Turns ahead second after) :
    seen = some value := by
  rcases kept_of_history history spared advanced.2.2.set with
    ⟨current, holds, moved⟩
  have same : seen = some current := again.1.symm.trans holds
  have back := advanced.2.1 current same
  rw [same, antisymm_of ahead back moved]

end Ordered

end Registers
