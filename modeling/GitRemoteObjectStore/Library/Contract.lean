import GitRemoteObjectStore.Library.CallProgram

/-!
# Contracts for programs that share their state

Other clients act between two calls of a program.  A contract says what they
are relied on to keep, which invariant holds between calls, in which states
a call is promised to happen, and what the program guarantees of each of its
own calls.  `Safe` reads a program against a contract; its rules follow the
constructions of `Prog`.
-/

namespace CallProgram

/-- The terms a program runs under. -/
structure Contract (C σ : Type) where
  /-- What the others may change between two calls. -/
  rely : σ → σ → Prop
  /-- What holds before and after every call. -/
  invariant : σ → Prop
  /-- When a call is promised to happen. -/
  met : C → σ → Prop
  /-- What each call of the program does to the state. -/
  guarantee : σ → σ → Prop
  rely_refl : ∀ state, rely state state
  rely_trans :
    ∀ first second third,
      rely first second → rely second third → rely first third

namespace Prog

variable
    {C : Type}
    {R : C → Type}
    {ε ε' α β γ σ : Type}

/-- Every call keeps to the contract, and so does the outcome. -/
def Safe
    (contract : Contract C σ)
    (handler : Handler C R σ)
    (post : Except ε α → σ → Prop) :
    Prog C R ε α → σ → Prop
  | .done value, state =>
      ∀ later, contract.rely state later → contract.invariant later →
        post (.ok value) later
  | .fail error, state =>
      ∀ later, contract.rely state later → contract.invariant later →
        post (.error error) later
  | .call request next, state =>
      ∀ later, contract.rely state later → contract.invariant later →
        contract.met request later →
        (contract.invariant (handler request later).2 ∧
          contract.guarantee later (handler request later).2) ∧
        Safe contract handler post
          (next (handler request later).1)
          (handler request later).2

/-- A postcondition on success only. -/
def whenOk (post : α → σ → Prop) : Except ε α → σ → Prop
  | .ok value, state => post value state
  | .error _, _ => True

/-- A postcondition on success, and what a failure tells. -/
def okOr (failed : Prop) (post : α → σ → Prop) : Except ε α → σ → Prop
  | .ok value, state => post value state
  | .error _, _ => failed

section Safe

variable
    {contract : Contract C σ}
    {handler : Handler C R σ}
    {post : Except ε α → σ → Prop}

/-- Safety survives what the others do. -/
theorem Safe.later
    {program : Prog C R ε α}
    {state later : σ}
    (safe : Safe contract handler post program state)
    (changed : contract.rely state later) :
    Safe contract handler post program later := by
  cases program with
  | done value =>
      intro last more holds
      exact safe last (contract.rely_trans _ _ _ changed more) holds
  | fail error =>
      intro last more holds
      exact safe last (contract.rely_trans _ _ _ changed more) holds
  | call request next =>
      intro last more holds met
      exact safe last (contract.rely_trans _ _ _ changed more) holds met

/-- The invariant may be assumed, at whatever state the program resumes. -/
theorem Safe.of_later
    {program : Prog C R ε α}
    {state : σ}
    (safe :
      ∀ later, contract.rely state later → contract.invariant later →
        Safe contract handler post program later) :
    Safe contract handler post program state := by
  cases program with
  | done value =>
      intro later changed holds
      exact safe later changed holds later (contract.rely_refl later) holds
  | fail error =>
      intro later changed holds
      exact safe later changed holds later (contract.rely_refl later) holds
  | call request next =>
      intro later changed holds
      exact safe later changed holds later (contract.rely_refl later) holds

theorem Safe.weaken
    {first : Except ε α → σ → Prop}
    {program : Prog C R ε α}
    {state : σ}
    (safe : Safe contract handler first program state)
    (implies :
      ∀ outcome later, contract.invariant later →
        first outcome later → post outcome later) :
    Safe contract handler post program state := by
  induction program generalizing state with
  | done value =>
      intro later changed holds
      exact implies _ later holds (safe later changed holds)
  | fail error =>
      intro later changed holds
      exact implies _ later holds (safe later changed holds)
  | call request next hypothesis =>
      intro later changed holds met
      rcases safe later changed holds met with ⟨kept, rest⟩
      exact ⟨kept, hypothesis _ rest⟩

theorem Safe.bind
    {first : Except ε β → σ → Prop}
    {program : Prog C R ε β}
    {next : β → Prog C R ε α}
    {state : σ}
    (safe : Safe contract handler first program state)
    (resume :
      ∀ value later, contract.invariant later →
        first (.ok value) later →
        Safe contract handler post (next value) later)
    (stop :
      ∀ error later, contract.invariant later →
        first (.error error) later → post (.error error) later) :
    Safe contract handler post (program >>= next) state := by
  induction program generalizing state with
  | done value =>
      exact
        Safe.of_later fun later changed holds =>
          resume value later holds (safe later changed holds)
  | fail error =>
      intro later changed holds
      exact stop error later holds (safe later changed holds)
  | call request rest hypothesis =>
      intro later changed holds met
      rcases safe later changed holds met with ⟨kept, remaining⟩
      exact ⟨kept, hypothesis _ remaining⟩

/-- The form of `Safe.bind` for postconditions on success only. -/
theorem Safe.andThen
    {first : β → σ → Prop}
    {last : α → σ → Prop}
    {program : Prog C R ε β}
    {next : β → Prog C R ε α}
    {state : σ}
    (safe : Safe contract handler (whenOk first) program state)
    (resume :
      ∀ value later, contract.invariant later → first value later →
        Safe contract handler (whenOk last) (next value) later) :
    Safe contract handler (whenOk last) (program >>= next) state :=
  safe.bind resume fun _ _ _ _ => trivial

/-- The form of `Safe.bind` where every failure tells the same. -/
theorem Safe.thenOr
    {failed : Prop}
    {first : β → σ → Prop}
    {last : α → σ → Prop}
    {program : Prog C R ε β}
    {next : β → Prog C R ε α}
    {state : σ}
    (safe : Safe contract handler (okOr failed first) program state)
    (resume :
      ∀ value later, contract.invariant later → first value later →
        Safe contract handler (okOr failed last) (next value) later) :
    Safe contract handler (okOr failed last) (program >>= next) state :=
  safe.bind resume fun _ _ _ known => known

/-- The form of `Safe.bind` after a program that keeps an assertion. -/
theorem Safe.keeping
    {keeps : σ → Prop}
    {last : α → σ → Prop}
    {program : Prog C R ε β}
    {next : β → Prog C R ε α}
    {state : σ}
    (safe :
      Safe contract handler (fun _ later => keeps later) program state)
    (resume :
      ∀ value later, contract.invariant later → keeps later →
        Safe contract handler (whenOk last) (next value) later) :
    Safe contract handler (whenOk last) (program >>= next) state :=
  safe.bind resume fun _ _ _ _ => trivial

/-- What neither the others nor the program's own calls end still holds. -/
theorem Safe.frame
    {keeps : σ → Prop}
    {first : α → σ → Prop}
    {program : Prog C R ε α}
    {state : σ}
    (safe : Safe contract handler (whenOk first) program state)
    (stable :
      ∀ state later,
        contract.rely state later → keeps state → keeps later)
    (own :
      ∀ state later,
        contract.guarantee state later → keeps state → keeps later)
    (holds : keeps state) :
    Safe contract handler
      (whenOk fun value later => first value later ∧ keeps later)
      program state := by
  induction program generalizing state with
  | done value =>
      intro later changed invariant
      exact
        ⟨safe later changed invariant, stable _ _ changed holds⟩
  | fail error => exact fun _ _ _ => trivial
  | call request next hypothesis =>
      intro later changed invariant met
      rcases safe later changed invariant met with
        ⟨⟨kept, guarantee⟩, rest⟩
      exact
        ⟨⟨kept, guarantee⟩,
          hypothesis _ rest
            (own _ _ guarantee (stable _ _ changed holds))⟩

/-- The form of `Safe.frame` for any postcondition. -/
theorem Safe.framing
    {keeps : σ → Prop}
    {program : Prog C R ε α}
    {state : σ}
    (safe : Safe contract handler post program state)
    (stable :
      ∀ state later,
        contract.rely state later → keeps state → keeps later)
    (own :
      ∀ state later,
        contract.guarantee state later → keeps state → keeps later)
    (holds : keeps state) :
    Safe contract handler
      (fun outcome later => post outcome later ∧ keeps later)
      program state := by
  induction program generalizing state with
  | done value =>
      intro later changed invariant
      exact
        ⟨safe later changed invariant, stable _ _ changed holds⟩
  | fail error =>
      intro later changed invariant
      exact
        ⟨safe later changed invariant, stable _ _ changed holds⟩
  | call request next hypothesis =>
      intro later changed invariant met
      rcases safe later changed invariant met with
        ⟨⟨kept, guarantee⟩, rest⟩
      exact
        ⟨⟨kept, guarantee⟩,
          hypothesis _ rest
            (own _ _ guarantee (stable _ _ changed holds))⟩

theorem Safe.mapError
    {convert : ε' → ε}
    {program : Prog C R ε' α}
    {state : σ}
    (safe :
      Safe contract handler
        (fun outcome => post (outcome.mapError convert)) program state) :
    Safe contract handler post (program.mapError convert) state := by
  induction program generalizing state with
  | done value => exact safe
  | fail error => exact safe
  | call request next hypothesis =>
      intro later changed holds met
      rcases safe later changed holds met with ⟨kept, rest⟩
      exact ⟨kept, hypothesis _ rest⟩

/-- The form of `Safe.mapError` for postconditions on success only. -/
theorem Safe.convert
    {convert : ε' → ε}
    {last : α → σ → Prop}
    {program : Prog C R ε' α}
    {state : σ}
    (safe : Safe contract handler (whenOk last) program state) :
    Safe contract handler (whenOk last) (program.mapError convert)
      state :=
  Safe.mapError <|
    safe.weaken fun outcome _ _ holds => by
      cases outcome with
      | ok value => exact holds
      | error error => trivial

theorem Safe.attempt
    {first : Except ε' α → σ → Prop}
    {program : Prog C R ε' α}
    {state : σ}
    (safe : Safe contract handler first program state) :
    Safe contract handler (whenOk first)
      (program.attempt : Prog C R ε (Except ε' α)) state := by
  induction program generalizing state with
  | done value => exact safe
  | fail error => exact safe
  | call request next hypothesis =>
      intro later changed holds met
      rcases safe later changed holds met with ⟨kept, rest⟩
      exact ⟨kept, hypothesis _ rest⟩

/-- The form of `Safe.attempt` that says it does not fail. -/
theorem Safe.attemptOr
    {failed : Prop}
    {first : Except ε' α → σ → Prop}
    {program : Prog C R ε' α}
    {state : σ}
    (safe : Safe contract handler first program state) :
    Safe contract handler (okOr failed first)
      (program.attempt : Prog C R ε (Except ε' α)) state := by
  induction program generalizing state with
  | done value => exact safe
  | fail error => exact safe
  | call request next hypothesis =>
      intro later changed holds met
      rcases safe later changed holds met with ⟨kept, rest⟩
      exact ⟨kept, hypothesis _ rest⟩

theorem safe_done
    {value : α}
    {state : σ}
    (holds :
      ∀ later, contract.rely state later → contract.invariant later →
        post (.ok value) later) :
    Safe contract handler post (.done value) state :=
  holds

/-- An end nothing is asked of. -/
theorem safe_end
    {value : α}
    {state : σ} :
    Safe contract handler (whenOk fun _ _ => True)
      (.done value : Prog C R ε α) state :=
  fun _ _ _ => trivial

/-- A failure, where only success is asked about. -/
theorem safe_fail
    {last : α → σ → Prop}
    {error : ε}
    {state : σ} :
    Safe contract handler (whenOk last) (.fail error) state :=
  fun _ _ _ => trivial

/-- A value known to be right stays right if its postcondition does. -/
theorem safe_ofExcept
    {outcome : Except ε α}
    {state : σ}
    (holds :
      ∀ later, contract.rely state later → contract.invariant later →
        post outcome later) :
    Safe contract handler post (ofExcept outcome) state := by
  cases outcome with
  | ok value => exact holds
  | error error => exact holds

/-- Go on with a value that has just been computed. -/
theorem Safe.check
    {last : α → σ → Prop}
    {outcome : Except ε β}
    {next : β → Prog C R ε α}
    {state : σ}
    (resume :
      ∀ value, outcome = .ok value →
        Safe contract handler (whenOk last) (next value) state) :
    Safe contract handler (whenOk last) (ofExcept outcome >>= next)
      state := by
  cases outcome with
  | ok value => exact resume value rfl
  | error error => exact fun _ _ _ => trivial

/-- The form of `Safe.check` where every failure tells the same. -/
theorem Safe.checkOr
    {failed : Prop}
    {last : α → σ → Prop}
    {outcome : Except ε β}
    {next : β → Prog C R ε α}
    {state : σ}
    (stop : ∀ error, outcome = .error error → failed)
    (resume :
      ∀ value, outcome = .ok value →
        Safe contract handler (okOr failed last) (next value) state) :
    Safe contract handler (okOr failed last) (ofExcept outcome >>= next)
      state := by
  cases outcome with
  | ok value => exact resume value rfl
  | error error => exact fun _ _ _ => stop error rfl

/-- Go on with a value that has just been computed, its error renamed. -/
theorem Safe.checkAs
    {last : α → σ → Prop}
    {convert : ε' → ε}
    {outcome : Except ε' β}
    {next : β → Prog C R ε α}
    {state : σ}
    (resume :
      ∀ value, outcome = .ok value →
        Safe contract handler (whenOk last) (next value) state) :
    Safe contract handler (whenOk last)
      ((ofExcept outcome).mapError convert >>= next) state := by
  cases outcome with
  | ok value => exact resume value rfl
  | error error => exact fun _ _ _ => trivial

/-- Nothing is asked of a program run for its effect only. -/
theorem Safe.toEffect
    {first : Except ε α → σ → Prop}
    {program : Prog C R ε α}
    {state : σ}
    (safe : Safe contract handler first program state) :
    Safe contract handler (fun _ _ => True) program.toEffect state :=
  safe.attempt.bind (fun _ _ _ _ _ _ _ => trivial)
    fun _ _ _ _ => trivial

/--
A loop keeps an assertion about what it has accumulated and what it has left
to do.
-/
theorem safe_foldEach
    {body : γ → β → Prog C R ε γ}
    (loop : γ → List β → σ → Prop)
    (stable :
      ∀ accumulated remaining state later,
        contract.rely state later →
        loop accumulated remaining state → loop accumulated remaining later)
    (each :
      ∀ accumulated item remaining state,
        contract.invariant state →
        loop accumulated (item :: remaining) state →
        Safe contract handler
          (whenOk fun next later => loop next remaining later)
          (body accumulated item) state)
    {accumulated : γ}
    {items : List β}
    {state : σ}
    (holds : loop accumulated items state) :
    Safe contract handler
      (whenOk fun result later => loop result [] later)
      (foldEach body accumulated items) state := by
  induction items generalizing accumulated state with
  | nil =>
      intro later changed _
      exact stable _ _ _ _ changed holds
  | cons item rest hypothesis =>
      refine Safe.of_later fun later changed invariant => ?_
      exact
        (each accumulated item rest later invariant
          (stable _ _ _ _ changed holds)).andThen
            fun next last _ kept => hypothesis kept

/-- The form of `safe_foldEach` where every failure tells the same. -/
theorem safe_foldEach_or
    {failed : Prop}
    {body : γ → β → Prog C R ε γ}
    (loop : γ → List β → σ → Prop)
    (stable :
      ∀ accumulated remaining state later,
        contract.rely state later →
        loop accumulated remaining state → loop accumulated remaining later)
    (each :
      ∀ accumulated item remaining state,
        contract.invariant state →
        loop accumulated (item :: remaining) state →
        Safe contract handler
          (okOr failed fun next later => loop next remaining later)
          (body accumulated item) state)
    {accumulated : γ}
    {items : List β}
    {state : σ}
    (holds : loop accumulated items state) :
    Safe contract handler
      (okOr failed fun result later => loop result [] later)
      (foldEach body accumulated items) state := by
  induction items generalizing accumulated state with
  | nil =>
      intro later changed _
      exact stable _ _ _ _ changed holds
  | cons item rest hypothesis =>
      refine Safe.of_later fun later changed invariant => ?_
      exact
        (each accumulated item rest later invariant
          (stable _ _ _ _ changed holds)).thenOr
            fun next last _ kept => hypothesis kept

/-- A loop each turn of which has a known outcome has one. -/
theorem safe_foldEach_known
    {body : γ → β → Prog C R ε γ}
    {known : γ → β → Except ε γ}
    {items : List β}
    (each :
      ∀ accumulated, ∀ item ∈ items, ∀ state,
        Safe contract handler
          (fun outcome _ => outcome = known accumulated item)
          (body accumulated item) state)
    (accumulated : γ)
    (state : σ) :
    Safe contract handler
      (fun outcome _ => outcome = items.foldlM known accumulated)
      (foldEach body accumulated items) state := by
  induction items generalizing accumulated state with
  | nil => exact fun _ _ _ => rfl
  | cons item rest hypothesis =>
      rw [foldEach_cons, List.foldlM_cons]
      apply (each accumulated item List.mem_cons_self state).bind
      · intro next later _ told
        rw [← told]
        exact
          hypothesis
            (fun other turn member =>
              each other turn (List.mem_cons_of_mem _ member))
            next later
      · intro error later _ told
        rw [← told]
        rfl

/-- Programs that issue only calls of a kind keep what such calls keep. -/
theorem Issues.safe
    {credible : (request : C) → R request → Prop}
    {allowed : C → Prop}
    {keeps : σ → Prop}
    (replies : ∀ request state, credible request (handler request state).1)
    (step :
      ∀ request state,
        allowed request → contract.invariant state →
        contract.met request state → keeps state →
        (contract.invariant (handler request state).2 ∧
          contract.guarantee state (handler request state).2) ∧
        keeps (handler request state).2)
    (stable :
      ∀ state later,
        contract.rely state later → keeps state → keeps later)
    {program : Prog C R ε α}
    (issues : Issues credible allowed program)
    {state : σ}
    (holds : keeps state) :
    Safe contract handler (fun _ later => keeps later) program state := by
  induction program generalizing state with
  | done value =>
      intro later changed _
      exact stable _ _ changed holds
  | fail error =>
      intro later changed _
      exact stable _ _ changed holds
  | call request next hypothesis =>
      intro later changed invariant met
      rcases
        step request later issues.1 invariant met
          (stable _ _ changed holds) with ⟨kept, after⟩
      exact
        ⟨kept, hypothesis _ (issues.2 _ (replies request later)) after⟩

/-- The form of `Issues.safe` that also says what is returned. -/
theorem Issues.safeReturning
    {credible : (request : C) → R request → Prop}
    {allowed : C → Prop}
    {good : α → Prop}
    {keeps : σ → Prop}
    (replies : ∀ request state, credible request (handler request state).1)
    (step :
      ∀ request state,
        allowed request → contract.invariant state →
        contract.met request state → keeps state →
        (contract.invariant (handler request state).2 ∧
          contract.guarantee state (handler request state).2) ∧
        keeps (handler request state).2)
    (stable :
      ∀ state later,
        contract.rely state later → keeps state → keeps later)
    {program : Prog C R ε α}
    (issues : Issues credible allowed program)
    (returns : Returns credible good program)
    {state : σ}
    (holds : keeps state) :
    Safe contract handler
      (whenOk fun value later => good value ∧ keeps later) program
      state := by
  induction program generalizing state with
  | done value =>
      intro later changed _
      exact ⟨returns, stable _ _ changed holds⟩
  | fail error => exact fun _ _ _ => trivial
  | call request next hypothesis =>
      intro later changed invariant met
      have credible := replies request later
      rcases
        step request later issues.1 invariant met
          (stable _ _ changed holds) with ⟨kept, after⟩
      exact
        ⟨kept,
          hypothesis _ (issues.2 _ credible) (returns _ credible) after⟩

/--
A safe program run alone ends as its postcondition says, unless it reaches a
state in which calls are promised no more.
-/
theorem Safe.run_unless
    {credible : (request : C) → R request → Prop}
    {allowed : C → Prop}
    {spoiled : σ → Prop}
    (replies : ∀ request state, credible request (handler request state).1)
    (stays :
      ∀ request state,
        allowed request → spoiled state → spoiled (handler request state).2)
    (promised :
      ∀ request state,
        contract.invariant state → ¬ spoiled state →
          contract.met request state)
    {program : Prog C R ε α}
    (issues : Issues credible allowed program)
    {state : σ}
    (safe : Safe contract handler post program state)
    (invariant : contract.invariant state) :
    spoiled (run handler program state).2 ∨
      contract.invariant (run handler program state).2 ∧
        post (run handler program state).1
          (run handler program state).2 := by
  induction program generalizing state with
  | done value =>
      exact
        Or.inr
          ⟨invariant, safe state (contract.rely_refl state) invariant⟩
  | fail error =>
      exact
        Or.inr
          ⟨invariant, safe state (contract.rely_refl state) invariant⟩
  | call request next hypothesis =>
      by_cases spoilt : spoiled state
      · exact Or.inl (issues.run replies stays spoilt)
      · rcases
          safe state (contract.rely_refl state) invariant
            (promised request state invariant spoilt) with ⟨kept, rest⟩
        exact
          hypothesis _ (issues.2 _ (replies request state)) rest kept.1

/-- A safe program run alone ends as its postcondition says. -/
theorem Safe.run
    (always : ∀ request state, contract.met request state)
    {program : Prog C R ε α}
    {state : σ}
    (safe : Safe contract handler post program state)
    (invariant : contract.invariant state) :
    contract.invariant (run handler program state).2 ∧
      post (run handler program state).1 (run handler program state).2 := by
  induction program generalizing state with
  | done value =>
      exact ⟨invariant, safe state (contract.rely_refl state) invariant⟩
  | fail error =>
      exact ⟨invariant, safe state (contract.rely_refl state) invariant⟩
  | call request next hypothesis =>
      rcases
        safe state (contract.rely_refl state) invariant
          (always request state) with ⟨kept, rest⟩
      exact hypothesis _ rest kept.1

end Safe

end Prog

/-- The contract that promises every call. -/
def Contract.promising
    {C σ : Type}
    (contract : Contract C σ) : Contract C σ :=
  { contract with met := fun _ _ => True }

/-- What the invariant promises need not be promised. -/
theorem Prog.Safe.promising
    {C : Type}
    {R : C → Type}
    {ε α σ : Type}
    {contract : Contract C σ}
    {handler : Prog.Handler C R σ}
    {post : Except ε α → σ → Prop}
    (met :
      ∀ request state,
        contract.invariant state → contract.met request state)
    {program : Prog C R ε α}
    {state : σ}
    (safe : Prog.Safe contract handler post program state) :
    Prog.Safe contract.promising handler post program state := by
  induction program generalizing state with
  | done value => exact safe
  | fail error => exact safe
  | call request next hypothesis =>
      intro later changed invariant _
      rcases safe later changed invariant (met request later invariant) with
        ⟨kept, rest⟩
      exact ⟨kept, hypothesis _ rest⟩

/-- The contract of a program nobody interferes with. -/
def Contract.alone
    {C σ : Type}
    (invariant : σ → Prop) : Contract C σ where
  rely := Eq
  invariant := invariant
  met := fun _ _ => True
  guarantee := fun _ _ => True
  rely_refl := fun _ => rfl
  rely_trans := fun _ _ _ first second => first.trans second

/-- The contract of a program nothing is known about the others of. -/
def Contract.lawless (C σ : Type) : Contract C σ where
  rely := fun _ _ => True
  invariant := fun _ => True
  met := fun _ _ => True
  guarantee := fun _ _ => True
  rely_refl := fun _ => trivial
  rely_trans := fun _ _ _ _ _ => trivial

/-- The contract of a program among others that change the state like it. -/
def Contract.among
    {C σ : Type}
    (invariant : σ → Prop)
    (evolves : σ → σ → Prop)
    (refl : ∀ state, evolves state state)
    (trans :
      ∀ first second third,
        evolves first second → evolves second third →
          evolves first third) : Contract C σ where
  rely := evolves
  invariant := invariant
  met := fun _ _ => True
  guarantee := evolves
  rely_refl := refl
  rely_trans := trans

/-- The contract of a program whose others keep an invariant only. -/
def Contract.within
    {C σ : Type}
    (invariant : σ → Prop) : Contract C σ where
  rely := fun _ _ => True
  invariant := invariant
  met := fun _ _ => True
  guarantee := fun _ _ => True
  rely_refl := fun _ => trivial
  rely_trans := fun _ _ _ _ _ => trivial

end CallProgram
