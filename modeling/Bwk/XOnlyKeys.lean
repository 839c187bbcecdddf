import Mathlib.Algebra.Module.Defs
import Mathlib.Tactic.Abel

namespace Bwk

/-!
# Points known by their x coordinate

An x-only key names a point of a group up to its sign; one of the two points,
the even one, stands for the key.
-/

/-- Keys that name the points of a group up to their sign. -/
structure XOnlyKeys (G X : Type) [AddCommGroup G] where
  key : G → X
  /-- The point with this key that stands for it. -/
  even : X → G
  key_even : ∀ x, key (even x) = x
  even_ne_zero : ∀ x, even x ≠ 0
  key_eq_iff :
    ∀ {P Q}, P ≠ 0 → Q ≠ 0 → (key P = key Q ↔ P = Q ∨ P = -Q)

namespace XOnlyKeys

variable {G X : Type} [AddCommGroup G] (keys : XOnlyKeys G X)

variable {x : X} {P : G}

/-- A key is that of a point exactly if its even point is the point up to
sign. -/
theorem eq_key_iff
    (finite : P ≠ 0) :
    x = keys.key P ↔ keys.even x = P ∨ keys.even x = -P := by
  rw [← keys.key_eq_iff (keys.even_ne_zero x) finite, keys.key_even]

/-- A key is that of a sum exactly if subtracting one summand from one of its
two points gives the other. -/
theorem eq_key_add_iff
    {P D : G}
    (finite : P + D ≠ 0) :
    x = keys.key (P + D) ↔
      keys.even x + -P = D ∨ -keys.even x + -P = D := by
  rw [keys.eq_key_iff finite]
  constructor
  · rintro (same | opposite)
    · left
      rw [same]
      abel
    · right
      rw [opposite]
      abel
  · rintro (same | opposite)
    · left
      rw [← same]
      abel
    · right
      rw [← opposite]
      abel

theorem even_add_neg_ne_zero
    (finite : P ≠ 0)
    (apart : x ≠ keys.key P) :
    keys.even x + -P ≠ 0 ∧ -keys.even x + -P ≠ 0 := by
  rw [ne_eq, keys.eq_key_iff finite, not_or] at apart
  constructor
  · intro cancels
    exact apart.1 (add_neg_eq_zero.mp cancels)
  · intro cancels
    exact apart.2 (neg_eq_iff_eq_neg.mp (add_neg_eq_zero.mp cancels))

end XOnlyKeys

end Bwk
