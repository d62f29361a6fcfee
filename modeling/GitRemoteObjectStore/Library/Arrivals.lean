import Mathlib.Data.List.AList
import Mathlib.Data.List.Perm.Basic
import Mathlib.Data.List.Forall2
import Mathlib.Data.List.Induction

/-!
# Jobs that complete in any order

A batch of concurrent jobs completes in an order of its own.  What the jobs
leave behind is collected under names, a later job overwriting what an
earlier one left under the same name.  When no two jobs share a name, the
order does not matter.
-/

namespace Arrivals

/-- For every number of jobs, an order in which they complete. -/
structure Completion where
  order : Nat → List Nat
  permutes : ∀ count, (order count).Perm (List.range count)

/-- The order in which the jobs were started. -/
def Completion.inOrder : Completion where
  order := List.range
  permutes := fun _ => List.Perm.refl _

/-- The order opposite to the one in which the jobs were started. -/
def Completion.reversed : Completion where
  order := fun count => (List.range count).reverse
  permutes := fun _ => List.reverse_perm _

section Jobs

variable {α : Type}

/-- The jobs, in the order in which they complete. -/
def Completion.arrange
    (completion : Completion)
    (jobs : List α) : List α :=
  (completion.order jobs.length).filterMap fun place => jobs[place]?

theorem filterMap_range (jobs : List α) :
    (List.range jobs.length).filterMap (fun place => jobs[place]?) =
      jobs := by
  induction jobs using List.reverseRecOn with
  | nil => rfl
  | append_singleton front last hypothesis =>
      rw [List.length_append, List.length_singleton, List.range_succ,
        List.filterMap_append]
      have earlier :
          (List.range front.length).filterMap
              (fun place => (front ++ [last])[place]?) =
            (List.range front.length).filterMap
              (fun place => front[place]?) := by
        apply List.filterMap_congr
        intro place inside
        exact List.getElem?_append_left (List.mem_range.1 inside)
      rw [earlier, hypothesis]
      simp

/-- Every job completes exactly once. -/
theorem Completion.arrange_perm
    (completion : Completion)
    (jobs : List α) :
    (completion.arrange jobs).Perm jobs := by
  have permuted :=
    (completion.permutes jobs.length).filterMap
      fun place => jobs[place]?
  rw [filterMap_range] at permuted
  exact permuted

@[simp]
theorem Completion.mem_arrange
    {completion : Completion}
    {jobs : List α}
    {job : α} :
    job ∈ completion.arrange jobs ↔ job ∈ jobs :=
  (completion.arrange_perm jobs).mem_iff

@[simp]
theorem Completion.inOrder_arrange (jobs : List α) :
    Completion.inOrder.arrange jobs = jobs :=
  filterMap_range jobs

end Jobs

/-! ## Jobs that may fail -/

/-- What follows is right when what comes first is. -/
theorem bind_eq_ok
    {ε α β : Type}
    {first : Except ε α}
    {rest : α → Except ε β}
    {result : β} :
    (first >>= rest) = .ok result ↔
      ∃ value, first = .ok value ∧ rest value = .ok result := by
  cases first with
  | error error => simp [Bind.bind, Except.bind]
  | ok value => simp [Bind.bind, Except.bind]

/-- All outcomes are right when each is. -/
theorem mapM_eq_ok
    {α ε β : Type}
    {outcome : α → Except ε β}
    {jobs : List α}
    {results : List β} :
    jobs.mapM outcome = .ok results ↔
      List.Forall₂ (fun job result => outcome job = .ok result) jobs
        results := by
  induction jobs generalizing results with
  | nil =>
      simp [Pure.pure, Except.pure, eq_comm]
  | cons job rest hypothesis =>
      rw [List.mapM_cons]
      cases first : outcome job with
      | error error =>
          simp only [Bind.bind, Except.bind, reduceCtorEq, false_iff]
          intro both
          cases both with
          | cons same others =>
              rw [first] at same
              cases same
      | ok result =>
          cases others : rest.mapM outcome with
          | error error =>
              simp only [Bind.bind, Except.bind, reduceCtorEq,
                false_iff]
              intro both
              cases both with
              | cons same later =>
                  rw [hypothesis.2 later] at others
                  cases others
          | ok found =>
              simp only [Bind.bind, Except.bind, Pure.pure, Except.pure,
                Except.ok.injEq]
              constructor
              · rintro rfl
                exact List.Forall₂.cons first (hypothesis.1 others)
              · intro both
                cases both with
                | cons same later =>
                    rw [first] at same
                    cases same
                    rw [hypothesis.2 later] at others
                    cases others
                    rfl

theorem mapM_id_eq_ok
    {ε β : Type}
    {outcomes : List (Except ε β)}
    {results : List β} :
    outcomes.mapM id = .ok results ↔ outcomes = results.map .ok := by
  rw [mapM_eq_ok, ← List.forall₂_eq_eq_eq, List.forall₂_map_right_iff]
  rfl

theorem mapM_map_eq_some
    {α β γ : Type}
    {name : α → β}
    {found : β → Option γ}
    {content : α → γ}
    {jobs : List α}
    (each : ∀ job ∈ jobs, found (name job) = some (content job)) :
    (jobs.map name).mapM found = some (jobs.map content) := by
  induction jobs with
  | nil => rfl
  | cons job rest hypothesis =>
      rw [List.map_cons, List.mapM_cons, each job List.mem_cons_self,
        hypothesis fun other member =>
          each other (List.mem_cons_of_mem _ member)]
      rfl

/-- When jobs joined in any order have all succeeded, their results are those
of the jobs in another order. -/
theorem Completion.exists_of_mapM_arrange
    {ε β : Type}
    {completion : Completion}
    {outcomes : List (Except ε β)}
    {results : List β}
    (joined : (completion.arrange outcomes).mapM id = .ok results) :
    ∃ started : List β,
      outcomes = started.map .ok ∧ started.Perm results := by
  have same := mapM_id_eq_ok.1 joined
  have permuted : outcomes.Perm (results.map .ok) := by
    rw [← same]
    exact (completion.arrange_perm outcomes).symm
  have split := congrFun₂ (List.eq_map_comp_perm Except.ok) outcomes results
  exact split.mpr permuted

/-- Jobs that all succeed are all joined. -/
theorem Completion.exists_mapM_arrange
    {ε β : Type}
    (completion : Completion)
    {outcomes : List (Except ε β)}
    (succeed : ∀ outcome ∈ outcomes, ∃ result, outcome = .ok result) :
    ∃ results, (completion.arrange outcomes).mapM id = .ok results := by
  have all :
      ∀ outcomes : List (Except ε β),
        (∀ outcome ∈ outcomes, ∃ result, outcome = .ok result) →
        ∃ results : List β, outcomes = results.map .ok := by
    intro outcomes succeed
    induction outcomes with
    | nil => exact ⟨[], rfl⟩
    | cons first rest hypothesis =>
        rcases succeed first List.mem_cons_self with ⟨result, rfl⟩
        rcases hypothesis fun other member =>
          succeed other (List.mem_cons_of_mem _ member) with
          ⟨results, rfl⟩
        exact ⟨result :: results, rfl⟩
  rcases all (completion.arrange outcomes) fun outcome member =>
    succeed outcome (completion.mem_arrange.1 member) with ⟨results, same⟩
  exact ⟨results, mapM_id_eq_ok.2 same⟩

/-! ## Collecting by name -/

section Collect

variable
    {α ν β : Type}
    [DecidableEq ν]
    (name : α → ν)
    (content : α → β)

/-- What completed jobs have left, on top of what was there. -/
def collectOnto
    (collected : AList fun _ : ν => β)
    (jobs : List α) : AList fun _ : ν => β :=
  jobs.foldl
    (fun collected job => collected.insert (name job) (content job))
    collected

/-- What completed jobs have left. -/
def collect (jobs : List α) : AList fun _ : ν => β :=
  collectOnto name content ∅ jobs

variable {name content}

/-- What is found under a name was left by a job of that name. -/
theorem exists_of_lookup_collectOnto
    {jobs : List α}
    {asked : ν}
    {found : β}
    {collected : AList fun _ : ν => β}
    (held :
      (collectOnto name content collected jobs).lookup asked =
        some found) :
    (∃ job ∈ jobs, name job = asked ∧ content job = found) ∨
      collected.lookup asked = some found := by
  induction jobs generalizing collected with
  | nil => exact Or.inr held
  | cons job rest hypothesis =>
      rcases
        @hypothesis (collected.insert (name job) (content job)) held with
        ⟨other, member, same⟩ | earlier
      · exact Or.inl ⟨other, List.mem_cons_of_mem _ member, same⟩
      · by_cases own : asked = name job
        · subst own
          rw [AList.lookup_insert] at earlier
          exact
            Or.inl
              ⟨job, List.mem_cons_self, rfl, Option.some.inj earlier⟩
        · rw [AList.lookup_insert_ne own] at earlier
          exact Or.inr earlier

/-- Something is found under the name of every job. -/
theorem lookup_collectOnto_isSome
    {jobs : List α}
    {asked : ν}
    (collected : AList fun _ : ν => β) :
    ((collectOnto name content collected jobs).lookup asked).isSome ↔
      (∃ job ∈ jobs, name job = asked) ∨
        (collected.lookup asked).isSome := by
  induction jobs generalizing collected with
  | nil => simp [collectOnto]
  | cons job rest hypothesis =>
      change
        ((collectOnto name content
            (collected.insert (name job) (content job)) rest).lookup
          asked).isSome ↔ _
      rw [hypothesis]
      by_cases own : asked = name job
      · subst own
        simp
      · rw [AList.lookup_insert_ne own]
        simp [Ne.symm own]

/-- When jobs of one name leave the same, that is what is found. -/
theorem lookup_collect_of_agree
    {jobs : List α}
    {job : α}
    (member : job ∈ jobs)
    (agree :
      ∀ other ∈ jobs, name other = name job → content other = content job) :
    (collect name content jobs).lookup (name job) =
      some (content job) := by
  have present :
      ((collect name content jobs).lookup (name job)).isSome :=
    (lookup_collectOnto_isSome ∅).2 (Or.inl ⟨job, member, rfl⟩)
  rcases Option.isSome_iff_exists.1 present with ⟨found, held⟩
  rcases exists_of_lookup_collectOnto held with
    ⟨other, otherMember, same, rfl⟩ | absent
  · rw [held, agree other otherMember same]
  · rw [AList.lookup_empty] at absent
    cases absent

/-- Without shared names, what every job has left is found. -/
theorem lookup_collect
    {jobs : List α}
    (distinct : (jobs.map name).Nodup)
    {job : α}
    (member : job ∈ jobs) :
    (collect name content jobs).lookup (name job) =
      some (content job) := by
  apply lookup_collect_of_agree member
  intro other otherMember same
  rw [List.inj_on_of_nodup_map distinct otherMember member same]

end Collect

end Arrivals
