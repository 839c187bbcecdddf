import Mathlib

namespace Bwk

/-!
# Triples for computations whose state survives a failure

`EStateM ε σ` is the shape of code that mutates shared state and may return
early: the state reached before an error is the state left behind.  A triple
therefore has two postconditions, one for a return and one for an error.
-/

/--
Started in a state satisfying `pre`, `body` returns into `post` or fails into
`fail`.
-/
def Holds
    (pre : σ → Prop)
    (body : EStateM ε σ α)
    (post : α → σ → Prop)
    (fail : ε → σ → Prop) : Prop :=
  ∀ state, pre state →
    match body state with
    | .ok value after => post value after
    | .error reason after => fail reason after

/-- `body` leaves `inv` standing whether it returns or fails. -/
def Keeps (inv : σ → Prop) (body : EStateM ε σ α) : Prop :=
  Holds inv body (fun _ => inv) (fun _ => inv)

/-- Sequencing runs the continuation on the state the first part leaves. -/
theorem bind_apply
    (body : EStateM ε σ α)
    (next : α → EStateM ε σ β)
    (state : σ) :
    (body >>= next) state =
      match body state with
      | .ok value after => next value after
      | .error reason after => .error reason after := by
  show EStateM.bind body next state = _
  rw [EStateM.bind]
  split <;> simp_all

theorem bind_apply_ok
    {body : EStateM ε σ α}
    {next : α → EStateM ε σ β}
    {state after : σ}
    {value : α}
    (returned : body state = .ok value after) :
    (body >>= next) state = next value after := by
  rw [bind_apply, returned]

theorem get_bind_apply (next : σ → EStateM ε σ α) (state : σ) :
    (MonadState.get >>= next : EStateM ε σ α) state = next state state :=
  rfl

theorem bind_apply_error
    {body : EStateM ε σ α}
    {next : α → EStateM ε σ β}
    {state after : σ}
    {reason : ε}
    (failed : body state = .error reason after) :
    (body >>= next) state = .error reason after := by
  rw [bind_apply, failed]

/-- The state a computation ends in, however it ends. -/
def finalState : EStateM.Result ε σ α → σ
  | .ok _ state => state
  | .error _ state => state

namespace Holds

variable {ε σ α β : Type}
variable {pre : σ → Prop} {post : α → σ → Prop} {fail : ε → σ → Prop}

theorem pure
    {value : α}
    (holds : ∀ state, pre state → post value state) :
    Holds pre (Pure.pure value : EStateM ε σ α) post fail :=
  holds

theorem throw
    {reason : ε}
    (holds : ∀ state, pre state → fail reason state) :
    Holds pre (throw reason : EStateM ε σ α) post fail :=
  holds

theorem get
    {post : σ → σ → Prop}
    (holds : ∀ state, pre state → post state state) :
    Holds pre (MonadState.get : EStateM ε σ σ) post fail :=
  holds

theorem modify
    {post : Unit → σ → Prop}
    {update : σ → σ}
    (holds : ∀ state, pre state → post () (update state)) :
    Holds pre (modify update : EStateM ε σ Unit) post fail :=
  holds

variable {body : EStateM ε σ α} {next : α → EStateM ε σ β}

theorem bind
    {middle : α → σ → Prop}
    {post : β → σ → Prop}
    (first : Holds pre body middle fail)
    (second : ∀ value, Holds (middle value) (next value) post fail) :
    Holds pre (body >>= next) post fail := by
  intro state holds
  have reached := first state holds
  rw [bind_apply]
  cases outcome : body state with
  | ok value after =>
      rw [outcome] at reached
      exact second value after reached
  | error reason after =>
      rw [outcome] at reached
      exact reached

theorem through
    (middle : α → σ → Prop)
    {post : β → σ → Prop}
    (first : Holds pre body middle fail)
    (second : ∀ value, Holds (middle value) (next value) post fail) :
    Holds pre (body >>= next) post fail :=
  bind first second

theorem bindGet
    {next : σ → EStateM ε σ α}
    (rest :
      ∀ read, pre read → Holds pre (next read) post fail) :
    Holds pre (MonadState.get >>= next) post fail :=
  fun state holds => rest state holds state holds

theorem bindRead
    {next : σ → EStateM ε σ α}
    (rest :
      ∀ read, pre read →
        Holds (fun state => state = read) (next read) post fail) :
    Holds pre (MonadState.get >>= next) post fail :=
  fun state holds => rest state holds state rfl

theorem conseq
    {pre' : σ → Prop}
    {post' : α → σ → Prop}
    {fail' : ε → σ → Prop}
    (triple : Holds pre' body post' fail')
    (weaken : ∀ state, pre state → pre' state)
    (strengthen : ∀ value state, post' value state → post value state)
    (strengthenFail :
      ∀ reason state, fail' reason state → fail reason state) :
    Holds pre body post fail := by
  intro state holds
  have reached := triple state (weaken state holds)
  cases outcome : body state with
  | ok value after =>
      rw [outcome] at reached
      exact strengthen value after reached
  | error reason after =>
      rw [outcome] at reached
      exact strengthenFail reason after reached

theorem weaken
    (pre' : σ → Prop)
    (implied : ∀ state, pre state → pre' state)
    (triple : Holds pre' body post fail) :
    Holds pre body post fail :=
  fun state holds => triple state (implied state holds)

theorem step
    {fact : α → Prop}
    {firstFail : ε → σ → Prop}
    {post : β → σ → Prop}
    (first :
      Holds pre body (fun value state => pre state ∧ fact value) firstFail)
    (failed : ∀ reason state, firstFail reason state → fail reason state)
    (rest : ∀ value, fact value → Holds pre (next value) post fail) :
    Holds pre (body >>= next) post fail := by
  refine bind
    (conseq first (fun _ holds => holds) (fun _ _ reached => reached)
      failed) ?_
  rintro value state ⟨holds, known⟩
  exact rest value known state holds

/-- A first part that moves from one exact state description to another. -/
theorem move
    {middle : σ → Prop}
    {firstFail : ε → σ → Prop}
    {post : β → σ → Prop}
    (first : Holds pre body (fun _ => middle) firstFail)
    (failed : ∀ reason state, firstFail reason state → fail reason state)
    (rest : ∀ value, Holds middle (next value) post fail) :
    Holds pre (body >>= next) post fail :=
  bind
    (conseq first (fun _ holds => holds) (fun _ _ reached => reached)
      failed)
    rest

theorem ite
    {condition : Prop}
    [Decidable condition]
    {first second : EStateM ε σ α}
    (whenTrue :
      condition → Holds pre first post fail)
    (whenFalse :
      ¬ condition → Holds pre second post fail) :
    Holds pre (if condition then first else second) post fail := by
  by_cases taken : condition
  · rw [if_pos taken]
    exact whenTrue taken
  · rw [if_neg taken]
    exact whenFalse taken

theorem and
    {pre' : σ → Prop}
    {post' : α → σ → Prop}
    {fail' : ε → σ → Prop}
    (first : Holds pre body post fail)
    (second : Holds pre' body post' fail') :
    Holds (fun state => pre state ∧ pre' state) body
      (fun value state => post value state ∧ post' value state)
      (fun reason state => fail reason state ∧ fail' reason state) := by
  rintro state ⟨holds, holds'⟩
  have reached := first state holds
  have reached' := second state holds'
  cases outcome : body state with
  | ok value after | error reason after =>
      rw [outcome] at reached reached'
      exact ⟨reached, reached'⟩

theorem trivial (body : EStateM ε σ α) :
    Holds (fun _ => True) body (fun _ _ => True) (fun _ _ => True) := by
  intro state _
  cases body state <;> exact True.intro

theorem ok
    (triple : Holds pre body post fail)
    {state after : σ}
    {value : α}
    (holds : pre state)
    (returned : body state = .ok value after) :
    post value after := by
  have reached := triple state holds
  rw [returned] at reached
  exact reached

/-- The triple where a run ended, when both postconditions are the same. -/
theorem finalState
    {post : σ → Prop}
    (triple : Holds pre body (fun _ => post) (fun _ => post))
    (state : σ)
    (holds : pre state) :
    post (finalState (body state)) := by
  have reached := triple state holds
  cases outcome : body state with
  | ok value after | error reason after =>
      rw [outcome] at reached
      exact reached

theorem assume
    {fact : Prop}
    (known : ∀ state, pre state → fact)
    (triple : fact → Holds pre body post fail) :
    Holds pre body post fail :=
  fun state holds => triple (known state holds) state holds

end Holds

namespace Keeps

variable {ε σ α β : Type} {inv : σ → Prop}

theorem pure {value : α} :
    Keeps inv (Pure.pure value : EStateM ε σ α) :=
  Holds.pure (fun _ holds => holds)

theorem throw {reason : ε} :
    Keeps inv (throw reason : EStateM ε σ α) :=
  Holds.throw (fun _ holds => holds)

theorem get :
    Keeps inv (MonadState.get : EStateM ε σ σ) :=
  Holds.get (fun _ holds => holds)

theorem bind
    {body : EStateM ε σ α}
    {next : α → EStateM ε σ β}
    (first : Keeps inv body)
    (second : ∀ value, Keeps inv (next value)) :
    Keeps inv (body >>= next) :=
  Holds.bind first second

theorem ok
    {body : EStateM ε σ α}
    (keeps : Keeps inv body)
    {state after : σ}
    {value : α}
    (holds : inv state)
    (returned : body state = .ok value after) :
    inv after :=
  Holds.ok keeps holds returned

end Keeps

/--
From every state satisfying `inv`, `body` does exactly what `other` does,
unless it fails as `refused` allows.
-/
def AgreesUnless
    (inv : σ → Prop)
    (refused : ε → σ → Prop)
    (body other : EStateM ε σ α) : Prop :=
  ∀ state, inv state →
    body state = other state ∨
      ∃ reason after,
        body state = .error reason after ∧ refused reason after

namespace AgreesUnless

variable {ε σ α β : Type} {inv : σ → Prop} {refused : ε → σ → Prop}

theorem refl (body : EStateM ε σ α) :
    AgreesUnless inv refused body body :=
  fun _ _ => .inl rfl

theorem bind
    {body other : EStateM ε σ α}
    {next otherNext : α → EStateM ε σ β}
    (first : AgreesUnless inv refused body other)
    (keeps : Keeps inv body)
    (second :
      ∀ value, AgreesUnless inv refused (next value) (otherNext value)) :
    AgreesUnless inv refused (body >>= next) (other >>= otherNext) := by
  intro state holds
  rcases first state holds with same | ⟨reason, after, failed, expected⟩
  · cases outcome : body state with
    | ok value after =>
        rw [bind_apply_ok outcome, bind_apply_ok (same ▸ outcome)]
        exact second value after (keeps.ok holds outcome)
    | error reason after =>
        rw [bind_apply_error outcome, bind_apply_error (same ▸ outcome)]
        exact .inl rfl
  · exact .inr ⟨reason, after, bind_apply_error failed, expected⟩

theorem ite
    {condition : Prop}
    [Decidable condition]
    {body other body' other' : EStateM ε σ α}
    (whenTrue : AgreesUnless inv refused body other)
    (whenFalse : AgreesUnless inv refused body' other') :
    AgreesUnless inv refused (if condition then body else body')
      (if condition then other else other') := by
  by_cases taken : condition
  · rw [if_pos taken, if_pos taken]
    exact whenTrue
  · rw [if_neg taken, if_neg taken]
    exact whenFalse

end AgreesUnless

end Bwk
