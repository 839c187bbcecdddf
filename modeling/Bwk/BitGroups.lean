import Mathlib.Data.List.Induction
import Mathlib.Algebra.Order.Ring.Nat
import Mathlib.Tactic.Common

namespace Bwk.BitGroups

/-!
# Regrouping bits

Digits of one width are written as bits, most significant first, and the bits
are read in groups of another width.
-/

/-- The lowest bits of a number, the most significant first. -/
def bits : Nat → Nat → List Bool
  | 0, _ => []
  | width + 1, number => bits width (number / 2) ++ [decide (number % 2 = 1)]

/-- The number some bits stand for. -/
def ofBits (found : List Bool) : Nat :=
  found.foldl (fun number bit => 2 * number + bit.toNat) 0

/-- Cut the front of some bits into groups of one width. -/
def groups (width : Nat) : Nat → List Bool → List (List Bool)
  | 0, _ => []
  | count + 1, found =>
      found.take width :: groups width count (found.drop width)

def spread (width : Nat) (digits : List Nat) : List Bool :=
  digits.flatMap (bits width)

/-- The digits of one width in the front of some bits. -/
def gather (width count : Nat) (found : List Bool) : List Nat :=
  (groups width count found).map ofBits

@[simp] theorem length_bits (width number : Nat) :
    (bits width number).length = width := by
  induction width generalizing number with
  | zero =>
      rfl
  | succ width inductionHypothesis =>
      rw [bits, List.length_append, inductionHypothesis]
      rfl

theorem ofBits_concat (found : List Bool) (bit : Bool) :
    ofBits (found ++ [bit]) = 2 * ofBits found + bit.toNat := by
  rw [ofBits, List.foldl_append]
  rfl

theorem ofBits_bits
    {width number : Nat}
    (fits : number < 2 ^ width) :
    ofBits (bits width number) = number := by
  induction width generalizing number with
  | zero =>
      rw [pow_zero, Nat.lt_one_iff] at fits
      rw [fits]
      rfl
  | succ width inductionHypothesis =>
      have half : number / 2 < 2 ^ width := by
        rw [pow_succ] at fits
        omega
      rw [bits, ofBits_concat, inductionHypothesis half]
      obtain even | odd := Nat.mod_two_eq_zero_or_one number
      · simp only [even, Nat.zero_ne_one, decide_false, Bool.toNat_false]
        omega
      · simp only [odd, decide_true, Bool.toNat_true]
        omega

theorem bits_ofBits (found : List Bool) :
    bits found.length (ofBits found) = found := by
  induction found using List.reverseRecOn with
  | nil =>
      rfl
  | append_singleton found bit inductionHypothesis =>
      have half : (2 * ofBits found + bit.toNat) / 2 = ofBits found := by
        have small := bit.toNat_lt
        omega
      have last :
          decide ((2 * ofBits found + bit.toNat) % 2 = 1) = bit := by
        cases bit <;> simp
      rw [List.length_append, List.length_singleton, ofBits_concat, bits,
        half, last, inductionHypothesis]

theorem ofBits_lt (found : List Bool) :
    ofBits found < 2 ^ found.length := by
  induction found using List.reverseRecOn with
  | nil =>
      exact Nat.one_pos
  | append_singleton found bit inductionHypothesis =>
      have small := bit.toNat_lt
      rw [ofBits_concat, List.length_append, List.length_singleton, pow_succ]
      omega

theorem length_spread (width : Nat) (digits : List Nat) :
    (spread width digits).length = width * digits.length := by
  induction digits with
  | nil =>
      rfl
  | cons digit rest inductionHypothesis =>
      rw [spread, List.flatMap_cons, List.length_append, length_bits,
        ← spread, inductionHypothesis, List.length_cons, Nat.mul_succ,
        Nat.add_comm]

theorem length_gather (width count : Nat) (found : List Bool) :
    (gather width count found).length = count := by
  rw [gather, List.length_map]
  induction count generalizing found with
  | zero =>
      rfl
  | succ count inductionHypothesis =>
      rw [groups, List.length_cons, inductionHypothesis]

theorem gather_spread
    {width : Nat}
    {digits : List Nat}
    (fit : ∀ digit ∈ digits, digit < 2 ^ width)
    (more : List Bool) :
    gather width digits.length (spread width digits ++ more) = digits := by
  induction digits with
  | nil =>
      rfl
  | cons digit rest inductionHypothesis =>
      have first := ofBits_bits (fit digit List.mem_cons_self)
      have later :=
        inductionHypothesis (fun other member =>
          fit other (List.mem_cons_of_mem _ member))
      have same :
          spread width (digit :: rest) ++ more =
            bits width digit ++ (spread width rest ++ more) := by
        rw [spread, List.flatMap_cons, List.append_assoc]
        rfl
      rw [same, List.length_cons, gather, groups,
        List.take_left' (length_bits width digit),
        List.drop_left' (length_bits width digit), List.map_cons, first]
      exact congrArg (digit :: ·) later

variable {width count : Nat} {found : List Bool}

theorem spread_gather
    (enough : width * count ≤ found.length) :
    spread width (gather width count found) =
      found.take (width * count) := by
  induction count generalizing found with
  | zero =>
      rfl
  | succ count inductionHypothesis =>
      rw [Nat.mul_succ] at enough
      have front : (found.take width).length = width := by
        rw [List.length_take]
        omega
      have rest :
          spread width (gather width count (found.drop width)) =
            (found.drop width).take (width * count) :=
        inductionHypothesis (by rw [List.length_drop]; omega)
      have first : bits width (ofBits (found.take width)) =
          found.take width := by
        have same := bits_ofBits (found.take width)
        rw [front] at same
        exact same
      rw [gather, groups, List.map_cons, spread, List.flatMap_cons,
        ← spread, ← gather, rest, first, Nat.mul_succ, Nat.add_comm,
        List.take_add]

theorem gather_lt
    {digit : Nat}
    (member : digit ∈ gather width count found) :
    digit < 2 ^ width := by
  induction count generalizing found with
  | zero =>
      cases member
  | succ count inductionHypothesis =>
      rw [gather, groups, List.map_cons, List.mem_cons] at member
      obtain rfl | later := member
      · refine (ofBits_lt _).trans_le ?_
        exact Nat.pow_le_pow_right (by decide)
          (List.length_take_le width found)
      · exact inductionHypothesis later

end Bwk.BitGroups
