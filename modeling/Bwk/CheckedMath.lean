import Mathlib

namespace Bwk

/-!
# Checked 64-bit arithmetic

Unsigned 64-bit addition, subtraction and multiplication that fail where the
exact result leaves the type, in any error type with an overflow error.
-/

/-- The largest unsigned 64-bit integer. -/
def u64Max : Nat := 2 ^ 64 - 1

/-- An error type that can report that an operation left its type. -/
class Overflows (ε : Type) where
  overflow : ε

section Sequencing

variable {ε α β : Type}

variable {first : Except ε α} {next : α → Except ε β}

theorem bind_eq_ok
    {result : β} :
    (first >>= next) = .ok result ↔
      ∃ value, first = .ok value ∧ next value = .ok result := by
  cases first with
  | error cause =>
      constructor
      · intro impossible
        cases impossible
      · rintro ⟨value, impossible, later⟩
        cases impossible
  | ok value =>
      constructor
      · intro continued
        exact ⟨value, rfl, continued⟩
      · rintro ⟨value, same, continued⟩
        cases same
        exact continued

theorem bind_eq_error
    {cause : ε} :
    (first >>= next) = .error cause ↔
      first = .error cause ∨
        ∃ value, first = .ok value ∧ next value = .error cause := by
  cases first with
  | error other =>
      constructor
      · intro failed
        left
        cases failed
        rfl
      · rintro (failed | ⟨value, impossible, later⟩)
        · cases failed
          rfl
        · cases impossible
  | ok value =>
      constructor
      · intro continued
        exact .inr ⟨value, rfl, continued⟩
      · rintro (impossible | ⟨value, same, continued⟩)
        · cases impossible
        · cases same
          exact continued

@[simp]
theorem ok_bind
    (value : α)
    (next : α → Except ε β) :
    (Except.ok value >>= next) = next value :=
  rfl

@[simp]
theorem error_bind
    (cause : ε)
    (next : α → Except ε β) :
    ((Except.error cause : Except ε α) >>= next) = .error cause :=
  rfl

end Sequencing

section Operations

variable {ε : Type} [Overflows ε]

/-- A result that fits, or an overflow. -/
def fitU64 (exact : Nat) : Except ε Nat :=
  if exact ≤ u64Max then .ok exact else .error Overflows.overflow

def addU64 (left right : Nat) : Except ε Nat :=
  fitU64 (left + right)

def mulU64 (left right : Nat) : Except ε Nat :=
  fitU64 (left * right)

def subU64 (left right : Nat) : Except ε Nat :=
  if right ≤ left then .ok (left - right) else .error Overflows.overflow

def sumU64 (values : List Nat) : Except ε Nat :=
  values.foldlM addU64 0

variable {exact : Nat} {left right result : Nat} (values : List Nat)

theorem fitU64_of_le
    (fits : exact ≤ u64Max) :
    (fitU64 exact : Except ε Nat) = .ok exact :=
  if_pos fits

theorem fitU64_of_gt
    (exceeds : u64Max < exact) :
    (fitU64 exact : Except ε Nat) = .error Overflows.overflow :=
  if_neg (not_le.mpr exceeds)

@[simp]
theorem fitU64_eq_ok
    {exact result : Nat} :
    (fitU64 exact : Except ε Nat) = .ok result ↔
      exact ≤ u64Max ∧ exact = result := by
  by_cases fits : exact ≤ u64Max
  · simp [fitU64, fits]
  · simp [fitU64, fits]

@[simp]
theorem addU64_eq_ok :
    (addU64 left right : Except ε Nat) = .ok result ↔
      left + right ≤ u64Max ∧ left + right = result :=
  fitU64_eq_ok

@[simp]
theorem mulU64_eq_ok :
    (mulU64 left right : Except ε Nat) = .ok result ↔
      left * right ≤ u64Max ∧ left * right = result :=
  fitU64_eq_ok

@[simp]
theorem subU64_eq_ok :
    (subU64 left right : Except ε Nat) = .ok result ↔
      right ≤ left ∧ left - right = result := by
  by_cases ordered : right ≤ left
  · simp [subU64, ordered]
  · simp [subU64, ordered]

theorem subU64_of_le
    {left right : Nat}
    (ordered : right ≤ left) :
    (subU64 left right : Except ε Nat) = .ok (left - right) :=
  if_pos ordered

theorem subU64_of_gt
    {left right : Nat}
    (short : left < right) :
    (subU64 left right : Except ε Nat) = .error Overflows.overflow :=
  if_neg (not_le.mpr short)

/-- Partial sums never exceed the whole, so adding up overflows exactly when
the whole does. -/
theorem foldlM_addU64
    {start : Nat}
    (fits : start ≤ u64Max) :
    (values.foldlM addU64 start : Except ε Nat) =
      fitU64 (start + values.sum) := by
  induction values generalizing start with
  | nil => simp [fitU64, fits, pure, Except.pure]
  | cons value rest ih =>
      rw [List.foldlM_cons]
      by_cases next : start + value ≤ u64Max
      · have added :
            (addU64 start value : Except ε Nat) = .ok (start + value) :=
          fitU64_of_le next
        rw [added, ok_bind, ih next]
        simp [Nat.add_assoc]
      · have overflowed :
            (addU64 start value : Except ε Nat) =
              .error Overflows.overflow :=
          fitU64_of_gt (not_le.mp next)
        have exceeds : u64Max < start + (value :: rest).sum := by
          rw [List.sum_cons]
          omega
        rw [overflowed, error_bind, fitU64_of_gt exceeds]

theorem sumU64_eq :
    (sumU64 values : Except ε Nat) = fitU64 values.sum := by
  rw [sumU64, foldlM_addU64 values (Nat.zero_le _), Nat.zero_add]

@[simp]
theorem sumU64_eq_ok
    {values : List Nat}
    {result : Nat} :
    (sumU64 values : Except ε Nat) = .ok result ↔
      values.sum ≤ u64Max ∧ values.sum = result := by
  rw [sumU64_eq, fitU64_eq_ok]

end Operations

end Bwk
