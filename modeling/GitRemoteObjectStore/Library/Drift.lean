import GitRemoteObjectStore.Library.Faults

/-!
# Reading a state that others change

A program that only reads shares its state with clients that change it all
the time.  Each of its calls happens at a moment of its own, later than the
call before, and is answered from the state of that moment, or fails.  What
is proved about such a program holds whatever the others do.
-/

namespace CallProgram

variable
    {C : Type}
    {R : C → Type}
    {E ε ε' α β γ σ : Type}

/-- The terms of a program while time passes. -/
def Contract.flowing (C : Type) : Contract C Nat :=
  Contract.among (fun _ => True) (· ≤ ·) Nat.le_refl
    fun _ _ _ => Nat.le_trans

namespace Prog

/-- Answer each call from the state of its moment, or let it fail. -/
def drifting
    (handler : Handler C R σ)
    (broken : E → (request : C) → Option (R request))
    (states : Nat → σ)
    (faults : Nat → Option E) : Handler C R Nat :=
  fun request moment =>
    (((faults moment).bind fun error => broken error request).getD
        (handler request (states moment)).1,
      moment + 1)

section Drifting

variable
    {handler : Handler C R σ}
    {broken : E → (request : C) → Option (R request)}
    {states : Nat → σ}
    {faults : Nat → Option E}
    {post : Except ε α → Nat → Prop}

/-- A call of a program is answered at some moment, or fails. -/
theorem drifting_cases (request : C) (moment : Nat) :
    (drifting handler broken states faults request moment).1 =
        (handler request (states moment)).1 ∨
      ∃ error,
        broken error request =
          some (drifting handler broken states faults request moment).1 := by
  unfold drifting
  cases faults moment with
  | none => exact Or.inl rfl
  | some error =>
      cases answered : broken error request with
      | none =>
          left
          simp only [Option.bind_some, answered, Option.getD_none]
      | some reply =>
          right
          exact ⟨error, by simp only [Option.bind_some, answered]; rfl⟩

/-- The rule for one call, whenever it happens. -/
theorem safe_drifting_call
    {request : C}
    {next : R request → Prog C R ε α}
    {moment : Nat}
    (each :
      ∀ now, moment ≤ now →
        Safe (Contract.flowing C) (drifting handler broken states faults)
          post
          (next (drifting handler broken states faults request now).1)
          (now + 1)) :
    Safe (Contract.flowing C) (drifting handler broken states faults) post
      (.call request next) moment := by
  intro now later _ _
  exact ⟨⟨trivial, Nat.le_succ now⟩, each now later⟩

/-- A program does not end before it has begun. -/
theorem Safe.since
    {program : Prog C R ε α}
    {moment : Nat}
    (safe :
      Safe (Contract.flowing C) (drifting handler broken states faults)
        post program moment) :
    Safe (Contract.flowing C) (drifting handler broken states faults)
      (fun outcome now => post outcome now ∧ moment ≤ now) program
      moment := by
  apply safe.framing
  · exact fun _ _ later since => Nat.le_trans since later
  · exact fun _ _ later since => Nat.le_trans since later
  · exact Nat.le_refl moment

/-- What is safe in a state that drifts, a run has. -/
theorem Safe.run_drifting
    {program : Prog C R ε α}
    {moment : Nat}
    (safe :
      Safe (Contract.flowing C) (drifting handler broken states faults)
        post program moment) :
    post
      (Prog.run (drifting handler broken states faults) program moment).1
      (Prog.run (drifting handler broken states faults) program moment).2 :=
  (safe.run (fun _ _ => trivial) trivial).2

/--
A scan that for each item adds one value or none has what it got from some
item, and for each item what it got, or a reason in the time of the scan.
-/
theorem safe_gather
    {body : List α → β → Prog C R ε (List α)}
    (got : β → α → Nat → Nat → Prop)
    (lost : β → Nat → Nat → Prop)
    (gotWithin :
      ∀ {item value early late start now},
        start ≤ early → late ≤ now →
          got item value early late → got item value start now)
    (lostWithin :
      ∀ {item early late start now},
        start ≤ early → late ≤ now →
          lost item early late → lost item start now)
    {items : List β}
    (each :
      ∀ found, ∀ item ∈ items, ∀ moment,
        Safe (Contract.flowing C) (drifting handler broken states faults)
          (okOr False fun next later =>
            (∃ value,
              next = found ++ [value] ∧ got item value moment later) ∨
              next = found ∧ lost item moment later)
          (body found item) moment)
    (start : Nat) :
    Safe (Contract.flowing C) (drifting handler broken states faults)
      (okOr False fun found now =>
        (∀ value ∈ found, ∃ item ∈ items, got item value start now) ∧
          ∀ item ∈ items,
            (∃ value ∈ found, got item value start now) ∨
              lost item start now)
      (foldEach body [] items) start := by
  have looped :=
    @safe_foldEach_or C R ε β (List α) Nat (Contract.flowing C)
      (drifting handler broken states faults) False body
      (fun found remaining now =>
        start ≤ now ∧
          (∀ item ∈ remaining, item ∈ items) ∧
          (∀ value ∈ found, ∃ item ∈ items, got item value start now) ∧
          ∀ item ∈ items,
            item ∈ remaining ∨
              (∃ value ∈ found, got item value start now) ∨
                lost item start now)
      (by
        rintro found remaining early now later ⟨since, inside, sound, all⟩
        refine ⟨Nat.le_trans since later, inside, ?_, ?_⟩
        · intro value member
          rcases sound value member with ⟨item, listed, holds⟩
          exact ⟨item, listed, gotWithin (Nat.le_refl _) later holds⟩
        · intro item listed
          rcases all item listed with left | ⟨value, member, holds⟩ | gone
          · exact Or.inl left
          · exact
              Or.inr
                (Or.inl
                  ⟨value, member,
                    gotWithin (Nat.le_refl _) later holds⟩)
          · exact
              Or.inr (Or.inr (lostWithin (Nat.le_refl _) later gone)))
      (by
        rintro found item remaining moment -
          ⟨since, inside, sound, all⟩
        apply
          ((each found item (inside item List.mem_cons_self)
            moment).since).weaken
        rintro outcome later - ⟨stepped, after⟩
        cases outcome with
        | error error => exact stepped
        | ok next =>
            refine
              ⟨Nat.le_trans since after,
                fun other member =>
                  inside other (List.mem_cons_of_mem _ member),
                ?_, ?_⟩
            · intro value member
              rcases stepped with ⟨fresh, rfl, holds⟩ | ⟨rfl, -⟩
              · rcases List.mem_append.1 member with old | last
                · rcases sound value old with ⟨other, listed, holds⟩
                  exact
                    ⟨other, listed,
                      gotWithin (Nat.le_refl _) after holds⟩
                · rw [List.mem_singleton.1 last]
                  exact
                    ⟨item, inside item List.mem_cons_self,
                      gotWithin since (Nat.le_refl _) holds⟩
              · rcases sound value member with ⟨other, listed, holds⟩
                exact
                  ⟨other, listed, gotWithin (Nat.le_refl _) after holds⟩
            · intro other listed
              have kept
                  (value : α)
                  (member : value ∈ found) :
                  value ∈ next := by
                rcases stepped with ⟨fresh, rfl, -⟩ | ⟨rfl, -⟩
                · exact List.mem_append_left _ member
                · exact member
              rcases all other listed with
                left | ⟨value, member, holds⟩ | gone
              · rcases List.mem_cons.1 left with rfl | later
                · right
                  rcases stepped with ⟨fresh, rfl, holds⟩ | ⟨rfl, gone⟩
                  · exact
                      Or.inl
                        ⟨fresh, List.mem_append_right _ List.mem_cons_self,
                          gotWithin since (Nat.le_refl _) holds⟩
                  · exact
                      Or.inr (lostWithin since (Nat.le_refl _) gone)
                · exact Or.inl later
              · exact
                  Or.inr
                    (Or.inl
                      ⟨value, kept value member,
                        gotWithin (Nat.le_refl _) after holds⟩)
              · exact
                  Or.inr
                    (Or.inr (lostWithin (Nat.le_refl _) after gone)))
      [] items start
      ⟨Nat.le_refl _, fun _ member => member, by simp,
        fun _ listed => Or.inl listed⟩
  apply looped.weaken
  rintro outcome now - holds
  cases outcome with
  | error error => exact holds
  | ok found =>
      rcases holds with ⟨-, -, sound, all⟩
      refine ⟨sound, fun item listed => ?_⟩
      exact (all item listed).resolve_left List.not_mem_nil

end Drifting

end Prog

end CallProgram
