import Mathlib.Data.List.Basic
import Mathlib.Logic.Function.Basic

namespace Bwk

/-!
# Writing values to slots

A store of optional values, one for each slot, and lists of writes to it.  In
a list whose writes to one slot all carry one value, neither the order nor the
number of the writes matters.
-/

namespace Slots

variable {Slot Value : Type} [DecidableEq Slot]
variable {values : Slot → Option Value} {writes more : List (Slot × Value)}

def written
    (values : Slot → Option Value)
    (writes : List (Slot × Value)) : Slot → Option Value :=
  writes.foldl
    (fun values write => Function.update values write.1 (some write.2))
    values

def OneValue (writes : List (Slot × Value)) : Prop :=
  ∀ slot left right, (slot, left) ∈ writes → (slot, right) ∈ writes →
    left = right

omit [DecidableEq Slot] in
theorem OneValue.mono
    (one : OneValue more)
    (fewer : writes ⊆ more) :
    OneValue writes :=
  fun slot left right first second =>
    one slot left right (fewer first) (fewer second)

@[simp] theorem written_nil : written values [] = values :=
  rfl

variable {slot : Slot} {value : Value}

theorem written_of_not_written
    (unwritten : ∀ value, (slot, value) ∉ writes) :
    written values writes slot = values slot := by
  induction writes generalizing values with
  | nil =>
      rfl
  | cons write later inductionHypothesis =>
      have other : slot ≠ write.1 := by
        rintro rfl
        exact unwritten write.2 List.mem_cons_self
      refine (inductionHypothesis
        (fun value member =>
          unwritten value (List.mem_cons_of_mem _ member))).trans ?_
      exact Function.update_of_ne other ..

theorem written_of_mem
    (one : OneValue writes)
    (member : (slot, value) ∈ writes) :
    written values writes slot = some value := by
  induction writes generalizing values with
  | nil =>
      cases member
  | cons write later inductionHypothesis =>
      by_cases again : ∃ value, (slot, value) ∈ later
      · obtain ⟨last, still⟩ := again
        have same : last = value :=
          one slot last value (List.mem_cons_of_mem _ still) member
        subst same
        exact inductionHypothesis
          (one.mono (List.subset_cons_self _ _)) still
      · have here : (slot, value) = write :=
          (List.mem_cons.mp member).resolve_right
            (fun still => again ⟨value, still⟩)
        subst here
        refine (written_of_not_written
          (fun value still => again ⟨value, still⟩)).trans ?_
        exact Function.update_self ..

/-- Once some writes are made, one of more is seen if it is one of them or
was seen before. -/
theorem written_eq_some_iff
    (one : OneValue more)
    (fewer : writes ⊆ more)
    (member : (slot, value) ∈ more) :
    written values writes slot = some value ↔
      values slot = some value ∨ (slot, value) ∈ writes := by
  by_cases wrote : ∃ other, (slot, other) ∈ writes
  · obtain ⟨other, there⟩ := wrote
    have same : other = value := one slot other value (fewer there) member
    subst same
    rw [written_of_mem (one.mono fewer) there]
    exact ⟨fun _ => .inr there, fun _ => rfl⟩
  · rw [written_of_not_written (fun other there => wrote ⟨other, there⟩)]
    constructor
    · exact .inl
    · rintro (seen | there)
      · exact seen
      · exact (wrote ⟨value, there⟩).elim

/-- Some of the writes do what all of them do just when the others are seen
already. -/
theorem written_eq_iff
    (one : OneValue more)
    (fewer : writes ⊆ more) :
    written values writes = written values more ↔
      ∀ write ∈ more,
        values write.1 = some write.2 ∨ write ∈ writes := by
  constructor
  · rintro same ⟨slot, value⟩ member
    refine (written_eq_some_iff one fewer member).mp ?_
    rw [same]
    exact written_of_mem one member
  · intro seen
    funext slot
    by_cases wrote : ∃ value, (slot, value) ∈ more
    · obtain ⟨value, there⟩ := wrote
      rw [written_of_mem one there,
        (written_eq_some_iff one fewer there).mpr (seen _ there)]
    · rw [written_of_not_written (fun value there => wrote ⟨value, there⟩),
        written_of_not_written
          (fun value there => wrote ⟨value, fewer there⟩)]

end Slots

end Bwk
