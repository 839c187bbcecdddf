import Mathlib

namespace Bwk

/-!
# Runs of a transition system

A system takes events one at a time and refuses those it cannot take.  A run
lists what was taken; a condition on every step may narrow the runs looked at.
-/

variable {σ ε : Type}

/-- The state some events lead to, when each can be taken in its turn. -/
def follow (step : σ → ε → Option σ) : σ → List ε → Option σ
  | state, [] => some state
  | state, event :: later => (step state event).bind (follow step · later)

/-- A step function that refuses what a condition rules out. -/
def guarded
    (allowed : σ → ε → Prop)
    [DecidableRel allowed]
    (step : σ → ε → Option σ)
    (state : σ)
    (event : ε) : Option σ :=
  if allowed state event then step state event else none

def AnyStep (_ : σ) (_ : ε) : Prop :=
  True

instance : DecidableRel (AnyStep : σ → ε → Prop) :=
  fun _ _ => .isTrue trivial

/-- The events taken from a state, each allowed where it is taken. -/
inductive Run
    (step : σ → ε → Option σ)
    (allowed : σ → ε → Prop)
    (start : σ) :
    List ε → σ → Prop where
  | here : Run step allowed start [] start
  | took
      {events : List ε}
      {state next : σ}
      {event : ε}
      (before : Run step allowed start events state)
      (may : allowed state event)
      (stepped : step state event = some next) :
      Run step allowed start (events ++ [event]) next

namespace Run

variable {step : σ → ε → Option σ} {allowed : σ → ε → Prop}
variable {start middle state next : σ} {events later : List ε}

/-- What holds at the start and is kept by every allowed step holds after
every run. -/
theorem invariant
    (Inv : σ → Prop)
    (ran : Run step allowed start events state)
    (initially : Inv start)
    (kept :
      ∀ {state next event}, Inv state → allowed state event →
        step state event = some next → Inv next) :
    Inv state := by
  induction ran with
  | here =>
      exact initially
  | took before may stepped inductionHypothesis =>
      exact kept inductionHypothesis may stepped

/-- The rule of `invariant` where what is kept speaks of the events too. -/
theorem tracks
    (Inv : List ε → σ → Prop)
    (ran : Run step allowed start events state)
    (initially : Inv [] start)
    (kept :
      ∀ {events state next event}, Inv events state → allowed state event →
        step state event = some next → Inv (events ++ [event]) next) :
    Inv events state := by
  induction ran with
  | here =>
      exact initially
  | took before may stepped inductionHypothesis =>
      exact kept inductionHypothesis may stepped

theorem weaken
    {weaker : σ → ε → Prop}
    (ran : Run step allowed start events state)
    (implied : ∀ state event, allowed state event → weaker state event) :
    Run step weaker start events state := by
  induction ran with
  | here =>
      exact .here
  | took before may stepped inductionHypothesis =>
      exact .took inductionHypothesis (implied _ _ may) stepped

theorem append
    (first : Run step allowed start events middle)
    (second : Run step allowed middle later state) :
    Run step allowed start (events ++ later) state := by
  induction second with
  | here =>
      rw [List.append_nil]
      exact first
  | took before may stepped inductionHypothesis =>
      rw [← List.append_assoc]
      exact .took inductionHypothesis may stepped

theorem of_follow
    [DecidableRel allowed]
    (followed : follow (guarded allowed step) start events = some state) :
    Run step allowed start events state := by
  induction events generalizing start with
  | nil =>
      cases followed
      exact .here
  | cons event later inductionHypothesis =>
      rw [follow, Option.bind_eq_some_iff] at followed
      obtain ⟨next, taken, rest⟩ := followed
      rw [guarded, Option.ite_none_right_eq_some] at taken
      exact append (.took .here taken.1 taken.2) (inductionHypothesis rest)

end Run

end Bwk
