import Mathlib.Data.List.DropRight

/-!
# The last run of a keyed list

Entries arrive one by one, each with a key.  The last run is the longest end
of the list whose entries all have one key: an entry continues it or, with
another key, begins a new one.
-/

namespace LastRun

variable {κ α : Type}

variable [DecidableEq κ]

/-- The longest end of a list all of whose entries have the last key. -/
def lastRun (entries : List (κ × α)) : List (κ × α) :=
  match entries.getLast? with
  | none => []
  | some last => entries.rtakeWhile fun entry => entry.1 == last.1

@[simp]
theorem lastRun_nil : lastRun ([] : List (κ × α)) = [] :=
  rfl

theorem lastRun_concat_eq
    (entries : List (κ × α))
    (entry : κ × α) :
    lastRun (entries ++ [entry]) =
      (entries.rtakeWhile fun other => other.1 == entry.1) ++ [entry] := by
  unfold lastRun
  rw [List.getLast?_concat]
  simp only [List.rtakeWhile_concat, beq_self_eq_true, if_true]

/-- The last run is empty only when there is nothing at all. -/
@[simp]
theorem lastRun_eq_nil_iff {entries : List (κ × α)} :
    lastRun entries = [] ↔ entries = [] := by
  constructor
  · intro none
    rcases List.eq_nil_or_concat entries with empty | ⟨before, last, rfl⟩
    · exact empty
    · rw [List.concat_eq_append, lastRun_concat_eq] at none
      simp at none
  · rintro rfl
    rfl

/-- What an entry does to the last run, whose entries have one key. -/
def extend (run : List (κ × α)) (entry : κ × α) : List (κ × α) :=
  if run.all fun other => other.1 == entry.1 then run ++ [entry]
  else [entry]

/-- The last run grows by an entry, or the entry begins a new one. -/
theorem lastRun_concat
    (entries : List (κ × α))
    (entry : κ × α) :
    lastRun (entries ++ [entry]) = extend (lastRun entries) entry := by
  rw [lastRun_concat_eq]
  rcases List.eq_nil_or_concat entries with rfl | ⟨before, last, rfl⟩
  · simp [extend]
  · rw [List.concat_eq_append, lastRun_concat_eq, List.rtakeWhile_concat]
    unfold extend
    by_cases same : last.1 = entry.1
    · have all :
          ((before.rtakeWhile fun other => other.1 == last.1) ++
            [last]).all (fun other => other.1 == entry.1) = true := by
        rw [List.all_append, ← same]
        simp only [List.all_cons, List.all_nil, beq_self_eq_true,
          Bool.and_true, List.all_eq_true]
        intro other member
        exact List.mem_rtakeWhile_imp
          (p := fun other : κ × α => other.1 == last.1) member
      rw [if_pos all, if_pos (by simpa using same), same]
    · have notAll :
          ((before.rtakeWhile fun other => other.1 == last.1) ++
            [last]).all (fun other => other.1 == entry.1) = false := by
        simp [same]
      rw [notAll, if_neg (by simpa using same), if_neg Bool.false_ne_true]
      rfl

/-- All entries of the last run have one key. -/
theorem lastRun_same_key
    {entries : List (κ × α)}
    {first second : κ × α}
    (firstIn : first ∈ lastRun entries)
    (secondIn : second ∈ lastRun entries) :
    first.1 = second.1 := by
  have key :
      ∀ last,
        entries.getLast? = some last →
          ∀ entry ∈ lastRun entries, entry.1 = last.1 := by
    intro last found entry member
    unfold lastRun at member
    rw [found] at member
    simpa using List.mem_rtakeWhile_imp member
  cases found : entries.getLast? with
  | none =>
      rw [List.getLast?_eq_none_iff.1 found] at firstIn
      simp at firstIn
  | some last =>
      exact (key last found first firstIn).trans
        (key last found second secondIn).symm

end LastRun
