import GitRemoteObjectStore.Library.CallProgram

/-!
# Programs and the books kept about them

Books are kept of the calls a program makes and of the replies it gets.
Besides calling, a program may give notice of what it does: a notice is
entered into the books, and nothing is replied to it.  A program without its
notices makes the same calls and has the same outcome.
-/

namespace CallProgram

/-! ## Notices -/

/-- A call, or a notice that is given. -/
inductive Noted (C N : Type) where
  | call (request : C)
  | notice (note : N)

abbrev Noted.Reply {C N : Type} (R : C → Type) : Noted C N → Type
  | .call request => R request
  | .notice _ => Unit

namespace Prog

variable
    {C N : Type}
    {R : C → Type}
    {ε ε' α β σ : Type}

/-- A program that gives no notice. -/
def quiet : Prog C R ε α → Prog (Noted C N) (Noted.Reply R) ε α
  | .done value => .done value
  | .fail error => .fail error
  | .call request next => .call (.call request) fun reply => quiet (next reply)

def notify (note : N) : Prog (Noted C N) (Noted.Reply R) ε Unit :=
  .call (.notice note) .done

/-- The program without its notices. -/
def silence : Prog (Noted C N) (Noted.Reply R) ε α → Prog C R ε α
  | .done value => .done value
  | .fail error => .fail error
  | .call (.call request) next =>
      .call request fun reply => silence (next reply)
  | .call (.notice _) next => silence (next ())

section Silence

variable {program : Prog (Noted C N) (Noted.Reply R) ε α}

@[simp]
theorem silence_quiet (program : Prog C R ε α) :
    silence (N := N) (quiet program) = program := by
  induction program with
  | done value => rfl
  | fail error => rfl
  | call request next hypothesis =>
      exact congrArg (Prog.call request) (funext hypothesis)

@[simp]
theorem silence_done (value : α) :
    silence (.done value : Prog (Noted C N) (Noted.Reply R) ε α) =
      .done value :=
  rfl

@[simp]
theorem silence_notify (note : N) :
    silence (notify note : Prog (Noted C N) (Noted.Reply R) ε Unit) =
      .done () :=
  rfl

@[simp]
theorem silence_bind
    (program : Prog (Noted C N) (Noted.Reply R) ε α)
    (next : α → Prog (Noted C N) (Noted.Reply R) ε β) :
    silence (program >>= next) =
      silence program >>= fun value => silence (next value) := by
  induction program with
  | done value => rfl
  | fail error => rfl
  | call request rest hypothesis =>
      cases request with
      | call request =>
          exact congrArg (Prog.call request) (funext hypothesis)
      | notice note => exact hypothesis ()

@[simp]
theorem silence_attempt
    (program : Prog (Noted C N) (Noted.Reply R) ε α) :
    silence
        (attempt program :
          Prog (Noted C N) (Noted.Reply R) ε' (Except ε α)) =
      attempt (silence program) := by
  induction program with
  | done value => rfl
  | fail error => rfl
  | call request rest hypothesis =>
      cases request with
      | call request =>
          exact congrArg (Prog.call request) (funext hypothesis)
      | notice note => exact hypothesis ()

@[simp]
theorem silence_ofExcept (outcome : Except ε α) :
    silence
        (ofExcept outcome : Prog (Noted C N) (Noted.Reply R) ε α) =
      ofExcept outcome := by
  cases outcome with
  | ok value => rfl
  | error error => rfl

end Silence

/-! ## Books -/

/--
As long as the replies fit, the program ends with books that are as the
postcondition says.
-/
def Books
    (fits : (request : C) → R request → Prop)
    (book : σ → (request : C) → R request → σ)
    (post : Except ε α → σ → Prop) : Prog C R ε α → σ → Prop
  | .done value, books => post (.ok value) books
  | .fail error, books => post (.error error) books
  | .call request next, books =>
      ∀ reply, fits request reply →
        Books fits book post (next reply) (book books request reply)

section Books

variable
    {fits : (request : C) → R request → Prop}
    {book : σ → (request : C) → R request → σ}
    {post : Except ε α → σ → Prop}
    {books : σ}

theorem Books.weaken
    {first : Except ε α → σ → Prop}
    {program : Prog C R ε α}
    (kept : Books fits book first program books)
    (implies : ∀ outcome books, first outcome books → post outcome books) :
    Books fits book post program books := by
  induction program generalizing books with
  | done value => exact implies _ _ kept
  | fail error => exact implies _ _ kept
  | call request next hypothesis =>
      intro reply likely
      exact hypothesis reply (kept reply likely)

theorem Books.bind
    {program : Prog C R ε β}
    {next : β → Prog C R ε α}
    (kept :
      Books fits book
        (fun outcome books =>
          match outcome with
          | .ok value => Books fits book post (next value) books
          | .error error => post (.error error) books)
        program books) :
    Books fits book post (program >>= next) books := by
  induction program generalizing books with
  | done value => exact kept
  | fail error => exact kept
  | call request rest hypothesis =>
      intro reply likely
      exact hypothesis reply (kept reply likely)

theorem Books.attempt
    {program : Prog C R ε' α}
    {last : Except ε (Except ε' α) → σ → Prop}
    (kept :
      Books fits book (fun outcome books => last (.ok outcome) books)
        program books) :
    Books fits book last (program.attempt : Prog C R ε (Except ε' α))
      books := by
  induction program generalizing books with
  | done value => exact kept
  | fail error => exact kept
  | call request next hypothesis =>
      intro reply likely
      exact hypothesis reply (kept reply likely)

theorem Books.mapError
    {convert : ε' → ε}
    {program : Prog C R ε' α}
    (kept :
      Books fits book
        (fun outcome books => post (outcome.mapError convert) books)
        program books) :
    Books fits book post (program.mapError convert) books := by
  induction program generalizing books with
  | done value => exact kept
  | fail error => exact kept
  | call request next hypothesis =>
      intro reply likely
      exact hypothesis reply (kept reply likely)

end Books

end Prog

end CallProgram
