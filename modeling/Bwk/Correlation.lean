import Bwk.OrderedMap

namespace Bwk

/-!
# Answers matched by request number

A party numbers its requests and keeps, for those it still expects an answer
to, what it needs to handle that answer.  An answer takes its entry out of the
table, so that a number is answered once; several such tables may share the
numbers.
-/

variable {Key Ask : Type}

/--
A table of open requests: what it holds under a number is what was asked under
that number and is not answered yet.
-/
def Tracks
    (asks : Key → Ask → Prop)
    (pending : BTreeMap Nat Key)
    (asked : Nat → Option Ask)
    (answered : List Nat) : Prop :=
  ∀ id key,
    pending[id]? = some key ↔
      (∃ ask, asked id = some ask ∧ asks key ask) ∧ id ∉ answered

/-- The requests asked, with one more. -/
def askedAlso
    (asked : Nat → Option Ask)
    (id : Nat)
    (ask : Ask) : Nat → Option Ask :=
  fun query => if id = query then some ask else asked query

namespace Tracks

variable
    {asks : Key → Ask → Prop}
    {pending : BTreeMap Nat Key}
    {asked : Nat → Option Ask}
    {answered : List Nat}

theorem empty : Tracks asks ∅ (fun _ => none) [] := by
  intro id key
  simp

variable {id : Nat} {key : Key}

theorem asked_of_pending
    (tracks : Tracks asks pending asked answered)
    (found : pending[id]? = some key) :
    ∃ ask, asked id = some ask ∧ asks key ask :=
  ((tracks id key).mp found).1

theorem unanswered
    (tracks : Tracks asks pending asked answered)
    (found : pending[id]? = some key) :
    id ∉ answered :=
  ((tracks id key).mp found).2

theorem pending_or_answered
    (tracks : Tracks asks pending asked answered)
    (key : Key)
    {ask : Ask}
    (known : asked id = some ask)
    (cares : asks key ask) :
    pending[id]? = some key ∨ id ∈ answered := by
  by_cases done : id ∈ answered
  · exact Or.inr done
  · exact Or.inl ((tracks id key).mpr ⟨⟨ask, known, cares⟩, done⟩)

theorem closed
    (tracks : Tracks asks pending asked answered)
    {ask : Ask}
    (known : asked id = some ask)
    (foreign : ∀ key, ¬ asks key ask) :
    pending[id]? = none := by
  cases found : pending[id]? with
  | none =>
      rfl
  | some key =>
      obtain ⟨other, same, cares⟩ := tracks.asked_of_pending found
      rw [known] at same
      cases same
      exact absurd cares (foreign key)

theorem closed_of_answered
    (tracks : Tracks asks pending asked answered)
    (done : id ∈ answered) :
    pending[id]? = none := by
  cases found : pending[id]? with
  | none =>
      rfl
  | some key =>
      exact absurd done (tracks.unanswered found)

theorem ask_other
    (tracks : Tracks asks pending asked answered)
    (fresh : asked id = none)
    {ask : Ask}
    (foreign : ∀ key, ¬ asks key ask) :
    Tracks asks pending (askedAlso asked id ask) answered := by
  intro query key
  rw [tracks, askedAlso]
  by_cases here : id = query
  · subst here
    rw [if_pos rfl, fresh]
    constructor
    · rintro ⟨⟨_, impossible, _⟩, _⟩
      cases impossible
    · rintro ⟨⟨other, same, cares⟩, _⟩
      cases same
      exact absurd cares (foreign key)
  · rw [if_neg here]

theorem ask
    (tracks : Tracks asks pending asked answered)
    (unused : id ∉ answered)
    {ask : Ask}
    (cares : asks key ask)
    (only : ∀ other, asks other ask → other = key) :
    Tracks asks (pending.insert id key) (askedAlso asked id ask) answered := by
  intro query other
  rw [BTreeMap.getElem?_insert_eq, askedAlso]
  by_cases here : id = query
  · subst here
    rw [if_pos rfl, if_pos rfl]
    constructor
    · intro same
      cases same
      exact ⟨⟨ask, rfl, cares⟩, unused⟩
    · rintro ⟨⟨_, same, cares⟩, _⟩
      cases same
      rw [only other cares]
  · rw [if_neg here, if_neg here]
    exact tracks query other

theorem answer
    (tracks : Tracks asks pending asked answered)
    (id : Nat) :
    Tracks asks (pending.erase id) asked (answered ++ [id]) := by
  intro query other
  rw [BTreeMap.getElem?_erase_eq, List.mem_append, List.mem_singleton]
  by_cases here : id = query
  · subst here
    simp
  · rw [if_neg here, tracks]
    simp [Ne.symm here]

end Tracks

end Bwk
