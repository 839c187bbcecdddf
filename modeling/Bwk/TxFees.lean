import Bwk.CheckedMath

namespace Bwk.Tx

/-!
# Fees and what is left of the allowance

`process_fees` of `tx/src/transaction.rs`: what the inputs leave over the
outputs pays the fee, and the rest is a change output, the value of a maxed
output, or, when it would be dust, more fee.

Integers are `u64` and checked: an operation whose result leaves the type
panics.
-/

/-- Why building a transaction fails. -/
inductive Error where
  | feesNull
  | noInputs
  | singleMax
  | addInput
  | notEnoughForFee
  | input
  | output
  | coinSelection
  | coinSelectionFee
  | coinSelectionRequiresFeerate
  | spPartialSecret
  | changeAlreadyAdded
  | payToAnchor
  | notChange
  | missingChange (excess : Nat)
  | disproportionateFees
      (fee paidOutputs maxPercent maxAmount : Nat)
  deriving Repr, DecidableEq

/-- What a simulation warns about. -/
inductive Warning where
  | changeUnderDust (lost : Nat)
  | maxUnderDust (lost : Nat)
  | changeCreateDust (lost : Nat)
  | maxCreateDust (lost : Nat)
  | disproportionateFees (fee paidOutputs : Nat)
  deriving Repr, DecidableEq

def Error.toWarning : Error → Option Warning
  | .disproportionateFees fee paidOutputs _ _ =>
      some (.disproportionateFees fee paidOutputs)
  | _ => none

/-- What ends a program other than by returning. -/
inductive Panic where
  | overflow
  | unreachable
  | expect (message : String)
  /-- A coin selector panics. -/
  | selector
  deriving Repr, DecidableEq

/-- A function stops early with an error, or panics. -/
inductive Stop where
  | panic (cause : Panic)
  | err (error : Error)
  deriving Repr, DecidableEq

instance : Overflows Panic where
  overflow := .overflow

instance : Overflows Stop where
  overflow := .panic .overflow

/-- What a function that can fail or panic comes to. -/
abbrev Outcome (α : Type) : Type :=
  Except Stop α

/-- A function without errors, among those with them. -/
def liftPanic {α : Type} : Except Panic α → Outcome α
  | .ok value => .ok value
  | .error cause => .error (.panic cause)

variable {α : Type} {weight rate : Nat} {light heavy : Nat}
variable {outcome : Except Panic α}

@[simp]
theorem liftPanic_eq_ok
    {value : α} :
    liftPanic outcome = .ok value ↔ outcome = .ok value := by
  cases outcome <;> simp [liftPanic]

theorem liftPanic_error
    {stop : Stop}
    (stopped : liftPanic outcome = .error stop) :
    ∃ cause, stop = .panic cause := by
  cases outcome with
  | ok value => cases stopped
  | error cause =>
      cases stopped
      exact ⟨cause, rfl⟩

/-- The fee asked for: an amount, or a rate in thousandths of a satoshi for
each virtual byte. -/
inductive Fees where
  | sats (fee : Nat)
  | milliSatsVb (rate : Nat)
  deriving Repr, DecidableEq

/-- Whether nothing is to be paid. -/
def Fees.isNull : Fees → Bool
  | .sats fee => fee == 0
  | .milliSatsVb rate => rate == 0

def vbytesCeil (weight : Nat) : Nat :=
  (weight + 3) / 4

def rateFee (weight rate : Nat) : Outcome Nat := do
  let product ← mulU64 (vbytesCeil weight) rate
  return product / 1000

def Fees.pair
    (fees : Fees)
    (weightWoChange weightWithChange : Nat) : Outcome (Nat × Nat) :=
  match fees with
  | .sats fee => return (fee, fee)
  | .milliSatsVb rate => do
      let woChange ← rateFee weightWoChange rate
      let withChange ← rateFee weightWithChange rate
      return (woChange, withChange)

/-- The fee of a transaction of a weight, as an exact number. -/
def Fees.of (fees : Fees) (weight : Nat) : Nat :=
  match fees with
  | .sats fee => fee
  | .milliSatsVb rate => vbytesCeil weight * rate / 1000

def Fees.Fits (fees : Fees) (weight : Nat) : Prop :=
  match fees with
  | .sats _ => True
  | .milliSatsVb rate => vbytesCeil weight * rate ≤ u64Max

instance (fees : Fees) (weight : Nat) : Decidable (fees.Fits weight) := by
  cases fees with
  | sats fee => exact instDecidableTrue
  | milliSatsVb rate =>
      exact Nat.decLe (vbytesCeil weight * rate) u64Max

theorem vbytesCeil_mono
    (ordered : light ≤ heavy) :
    vbytesCeil light ≤ vbytesCeil heavy :=
  Nat.div_le_div_right (Nat.add_le_add_right ordered 3)

theorem Fees.of_mono
    (fees : Fees)
    (ordered : light ≤ heavy) :
    fees.of light ≤ fees.of heavy := by
  cases fees with
  | sats fee => exact le_rfl
  | milliSatsVb rate =>
      have bytes := vbytesCeil_mono ordered
      exact Nat.div_le_div_right (Nat.mul_le_mul_right rate bytes)

variable {fees : Fees}

theorem Fees.Fits.mono
    (ordered : light ≤ heavy)
    (fits : fees.Fits heavy) :
    fees.Fits light := by
  cases fees with
  | sats fee => trivial
  | milliSatsVb rate =>
      have bytes := vbytesCeil_mono ordered
      exact le_trans (Nat.mul_le_mul_right rate bytes) fits

theorem rateFee_of_fits
    (fits : (Fees.milliSatsVb rate).Fits weight) :
    rateFee weight rate = .ok ((Fees.milliSatsVb rate).of weight) := by
  have product :
      (mulU64 (vbytesCeil weight) rate : Outcome Nat) =
        .ok (vbytesCeil weight * rate) :=
    fitU64_of_le fits
  rw [rateFee, product]
  rfl

theorem rateFee_of_not_fits
    (exceeds : ¬ (Fees.milliSatsVb rate).Fits weight) :
    rateFee weight rate = .error (.panic .overflow) := by
  have product :
      (mulU64 (vbytesCeil weight) rate : Outcome Nat) =
        .error (.panic .overflow) :=
    fitU64_of_gt (not_le.mp exceeds)
  rw [rateFee, product]
  rfl

theorem Fees.pair_of_fits
    {weightWoChange weightWithChange : Nat}
    (ordered : weightWoChange ≤ weightWithChange)
    (fits : fees.Fits weightWithChange) :
    fees.pair weightWoChange weightWithChange =
      .ok (fees.of weightWoChange, fees.of weightWithChange) := by
  cases fees with
  | sats fee => rfl
  | milliSatsVb rate =>
      rw [Fees.pair, rateFee_of_fits (fits.mono ordered),
        rateFee_of_fits fits]
      rfl

theorem Fees.pair_of_not_fits
    {weightWoChange weightWithChange : Nat}
    (exceeds : ¬ fees.Fits weightWithChange) :
    fees.pair weightWoChange weightWithChange =
      .error (.panic .overflow) := by
  cases fees with
  | sats fee => exact absurd trivial exceeds
  | milliSatsVb rate =>
      rw [Fees.pair, rateFee_of_not_fits exceeds]
      by_cases lighter : (Fees.milliSatsVb rate).Fits weightWoChange
      · rw [rateFee_of_fits lighter]
        rfl
      · rw [rateFee_of_not_fits lighter]
        rfl

/-- Where the rest of the allowance goes. -/
inductive Drain where
  | change
  | max
  | none
  deriving Repr, DecidableEq

/-- What `process_fees` finds. -/
structure FeeResult where
  fees : Option Nat
  max : Option Nat
  change : Option Nat
  warnings : List Warning
  error : Option Error
  deriving Repr, DecidableEq

namespace FeeResult

/-- Nothing found yet. -/
def empty : FeeResult :=
  ⟨none, none, none, [], none⟩

/-- The inputs do not cover what they should. -/
def failed (error : Error) : FeeResult :=
  { empty with error := some error }

end FeeResult

def Drain.underDust (lost : Nat) : Drain → List Warning
  | .change => [.changeUnderDust lost]
  | .max => [.maxUnderDust lost]
  | .none => []

def Drain.createDust (lost : Nat) : Drain → List Warning
  | .change => [.changeCreateDust lost]
  | .max => [.maxCreateDust lost]
  | .none => []

/-- The rest is worth a drain. -/
def Drain.settle
    (allowance woChange withChange : Nat) : Drain → Outcome FeeResult
  | .none =>
      return { FeeResult.empty with fees := some woChange }
  | .change => do
      let change ← subU64 allowance withChange
      return { FeeResult.empty with
        change := some change
        fees := some withChange }
  | .max => do
      let max ← subU64 allowance woChange
      return { FeeResult.empty with
        max := some max
        fees := some woChange }

/-- Share what the inputs leave over the outputs between fee and drain. -/
def processFees
    (fees : Fees)
    (weightWoChange weightWithChange : Nat)
    (sumInputs sumOutputs : Nat)
    (drain : Drain)
    (dustThreshold : Nat) : Outcome FeeResult :=
  if sumOutputs > sumInputs then
    return .failed .addInput
  else do
    let allowance ← subU64 sumInputs sumOutputs
    let (woChange, withChange) ← fees.pair weightWoChange weightWithChange
    if woChange > allowance then
      return .failed .notEnoughForFee
    else
      let lost ← subU64 allowance woChange
      if lost < dustThreshold then
        return { FeeResult.empty with
          fees := some allowance
          warnings := drain.underDust lost }
      else
        -- only the fee without change has been compared with the allowance
        let remainder ← subU64 allowance withChange
        if remainder < dustThreshold then
          return { FeeResult.empty with
            fees := some allowance
            warnings := drain.createDust lost }
        else
          drain.settle allowance woChange withChange

def Drain.settled
    (allowance woChange withChange : Nat) : Drain → FeeResult
  | .none =>
      { FeeResult.empty with fees := some woChange }
  | .change =>
      { FeeResult.empty with
        change := some (allowance - withChange)
        fees := some withChange }
  | .max =>
      { FeeResult.empty with
        max := some (allowance - woChange)
        fees := some woChange }

/-- The allowance pays the fee and nothing else. -/
def FeeResult.spent (allowance : Nat) (warnings : List Warning) : FeeResult :=
  { FeeResult.empty with
    fees := some allowance
    warnings := warnings }

theorem Drain.settle_of_le
    {allowance woChange withChange : Nat}
    (paysWithout : woChange ≤ allowance)
    (paysWith : withChange ≤ allowance)
    (drain : Drain) :
    drain.settle allowance woChange withChange =
      .ok (drain.settled allowance woChange withChange) := by
  cases drain with
  | none => rfl
  | change =>
      rw [Drain.settle, subU64_of_le paysWith]
      rfl
  | max =>
      rw [Drain.settle, subU64_of_le paysWithout]
      rfl

section Regions

variable
    {fees : Fees}
    {weightWoChange weightWithChange : Nat}
    {sumInputs sumOutputs : Nat}
    {drain : Drain}
    {dustThreshold : Nat}

theorem processFees_short
    (short : sumInputs < sumOutputs) :
    processFees fees weightWoChange weightWithChange sumInputs sumOutputs
        drain dustThreshold =
      .ok (.failed .addInput) :=
  if_pos short

theorem processFees_overflow
    (covers : sumOutputs ≤ sumInputs)
    (exceeds : ¬ fees.Fits weightWithChange) :
    processFees fees weightWoChange weightWithChange sumInputs sumOutputs
        drain dustThreshold =
      .error (.panic .overflow) := by
  rw [processFees, if_neg (not_lt.mpr covers), subU64_of_le covers, ok_bind,
    Fees.pair_of_not_fits exceeds, error_bind]

variable
    (ordered : weightWoChange ≤ weightWithChange)
    (fits : fees.Fits weightWithChange)

include ordered fits

theorem processFees_unpaid
    (covers : sumOutputs ≤ sumInputs)
    (unpaid : sumInputs < sumOutputs + fees.of weightWoChange) :
    processFees fees weightWoChange weightWithChange sumInputs sumOutputs
        drain dustThreshold =
      .ok (.failed .notEnoughForFee) := by
  have above : fees.of weightWoChange > sumInputs - sumOutputs := by
    omega
  rw [processFees, if_neg (not_lt.mpr covers), subU64_of_le covers, ok_bind,
    Fees.pair_of_fits ordered fits, ok_bind]
  exact if_pos above

theorem processFees_underDust
    (paid : sumOutputs + fees.of weightWoChange ≤ sumInputs)
    (under :
      sumInputs < sumOutputs + fees.of weightWoChange + dustThreshold) :
    processFees fees weightWoChange weightWithChange sumInputs sumOutputs
        drain dustThreshold =
      .ok (.spent (sumInputs - sumOutputs)
        (drain.underDust
          (sumInputs - sumOutputs - fees.of weightWoChange))) := by
  have covers : sumOutputs ≤ sumInputs := by
    omega
  have pays : fees.of weightWoChange ≤ sumInputs - sumOutputs := by
    omega
  have lost :
      sumInputs - sumOutputs - fees.of weightWoChange < dustThreshold := by
    omega
  rw [processFees, if_neg (not_lt.mpr covers), subU64_of_le covers, ok_bind,
    Fees.pair_of_fits ordered fits, ok_bind]
  simp only [gt_iff_lt, not_lt.mpr pays, if_false, subU64_of_le pays,
    ok_bind, lost, if_true]
  rfl

theorem processFees_above
    (above :
      sumOutputs + fees.of weightWoChange + dustThreshold ≤ sumInputs) :
    processFees fees weightWoChange weightWithChange sumInputs sumOutputs
        drain dustThreshold =
      (do
        let remainder ←
          subU64 (sumInputs - sumOutputs) (fees.of weightWithChange)
        if remainder < dustThreshold then
          return .spent (sumInputs - sumOutputs)
            (drain.createDust
              (sumInputs - sumOutputs - fees.of weightWoChange))
        else
          drain.settle (sumInputs - sumOutputs) (fees.of weightWoChange)
            (fees.of weightWithChange)) := by
  have covers : sumOutputs ≤ sumInputs := by
    omega
  have pays : fees.of weightWoChange ≤ sumInputs - sumOutputs := by
    omega
  have worth :
      ¬ sumInputs - sumOutputs - fees.of weightWoChange <
        dustThreshold := by
    omega
  rw [processFees, if_neg (not_lt.mpr covers), subU64_of_le covers, ok_bind,
    Fees.pair_of_fits ordered fits, ok_bind]
  simp only [gt_iff_lt, not_lt.mpr pays, if_false, subU64_of_le pays,
    ok_bind, worth]
  rfl

/-- The allowance lies between the two fees: the subtraction of the larger
leaves the type. -/
theorem processFees_underflow
    (above :
      sumOutputs + fees.of weightWoChange + dustThreshold ≤ sumInputs)
    (below : sumInputs < sumOutputs + fees.of weightWithChange) :
    processFees fees weightWoChange weightWithChange sumInputs sumOutputs
        drain dustThreshold =
      .error (.panic .overflow) := by
  have short : sumInputs - sumOutputs < fees.of weightWithChange := by
    omega
  rw [processFees_above ordered fits above, subU64_of_gt short, error_bind]
  rfl

theorem processFees_createDust
    (above :
      sumOutputs + fees.of weightWoChange + dustThreshold ≤ sumInputs)
    (paid : sumOutputs + fees.of weightWithChange ≤ sumInputs)
    (dust :
      sumInputs < sumOutputs + fees.of weightWithChange + dustThreshold) :
    processFees fees weightWoChange weightWithChange sumInputs sumOutputs
        drain dustThreshold =
      .ok (.spent (sumInputs - sumOutputs)
        (drain.createDust
          (sumInputs - sumOutputs - fees.of weightWoChange))) := by
  have paysWith : fees.of weightWithChange ≤ sumInputs - sumOutputs := by
    omega
  have creates :
      sumInputs - sumOutputs - fees.of weightWithChange <
        dustThreshold := by
    omega
  rw [processFees_above ordered fits above, subU64_of_le paysWith, ok_bind,
    if_pos creates]
  rfl

theorem processFees_settled
    (worth :
      sumOutputs + fees.of weightWithChange + dustThreshold ≤ sumInputs) :
    processFees fees weightWoChange weightWithChange sumInputs sumOutputs
        drain dustThreshold =
      .ok (drain.settled (sumInputs - sumOutputs)
        (fees.of weightWoChange) (fees.of weightWithChange)) := by
  have heavier := fees.of_mono ordered
  have pays : fees.of weightWoChange ≤ sumInputs - sumOutputs := by
    omega
  have paysWith : fees.of weightWithChange ≤ sumInputs - sumOutputs := by
    omega
  have enough :
      ¬ sumInputs - sumOutputs - fees.of weightWithChange <
        dustThreshold := by
    omega
  rw [processFees_above ordered fits (by omega), subU64_of_le paysWith,
    ok_bind, if_neg enough]
  exact drain.settle_of_le pays paysWith

end Regions

inductive Shared
    (fees : Fees)
    (weightWoChange weightWithChange sumInputs sumOutputs : Nat)
    (drain : Drain)
    (dustThreshold : Nat) : FeeResult → Prop where
  | underDust
      (paid : sumOutputs + fees.of weightWoChange ≤ sumInputs)
      (under :
        sumInputs < sumOutputs + fees.of weightWoChange + dustThreshold) :
      Shared fees weightWoChange weightWithChange sumInputs sumOutputs drain
        dustThreshold
        (.spent (sumInputs - sumOutputs)
          (drain.underDust
            (sumInputs - sumOutputs - fees.of weightWoChange)))
  | createDust
      (above :
        sumOutputs + fees.of weightWoChange + dustThreshold ≤ sumInputs)
      (paid : sumOutputs + fees.of weightWithChange ≤ sumInputs)
      (dust :
        sumInputs < sumOutputs + fees.of weightWithChange + dustThreshold) :
      Shared fees weightWoChange weightWithChange sumInputs sumOutputs drain
        dustThreshold
        (.spent (sumInputs - sumOutputs)
          (drain.createDust
            (sumInputs - sumOutputs - fees.of weightWoChange)))
  | settled
      (worth :
        sumOutputs + fees.of weightWithChange + dustThreshold ≤ sumInputs) :
      Shared fees weightWoChange weightWithChange sumInputs sumOutputs drain
        dustThreshold
        (drain.settled (sumInputs - sumOutputs)
          (fees.of weightWoChange) (fees.of weightWithChange))

@[simp]
theorem FeeResult.failed_error
    (error : Error) :
    (FeeResult.failed error).error = some error :=
  rfl

@[simp]
theorem FeeResult.spent_error
    (allowance : Nat)
    (warnings : List Warning) :
    (FeeResult.spent allowance warnings).error = none :=
  rfl

@[simp]
theorem settled_error
    (allowance woChange withChange : Nat)
    (drain : Drain) :
    (drain.settled allowance woChange withChange).error = none := by
  cases drain <;> rfl

section Conservation

variable
    {fees : Fees}
    {weightWoChange weightWithChange : Nat}
    {sumInputs sumOutputs : Nat}
    {drain : Drain}
    {dustThreshold : Nat}
    (ordered : weightWoChange ≤ weightWithChange)

include ordered

theorem processFees_cases
    {outcome : Outcome FeeResult}
    (ran :
      processFees fees weightWoChange weightWithChange sumInputs sumOutputs
        drain dustThreshold = outcome) :
    (sumInputs < sumOutputs ∧ outcome = .ok (.failed .addInput)) ∨
    (sumOutputs ≤ sumInputs ∧ ¬ fees.Fits weightWithChange ∧
      outcome = .error (.panic .overflow)) ∨
    (sumOutputs ≤ sumInputs ∧ fees.Fits weightWithChange ∧
      sumInputs < sumOutputs + fees.of weightWoChange ∧
      outcome = .ok (.failed .notEnoughForFee)) ∨
    (fees.Fits weightWithChange ∧
      sumOutputs + fees.of weightWoChange + dustThreshold ≤ sumInputs ∧
      sumInputs < sumOutputs + fees.of weightWithChange ∧
      outcome = .error (.panic .overflow)) ∨
    (fees.Fits weightWithChange ∧
      ∃ result, outcome = .ok result ∧
        Shared fees weightWoChange weightWithChange sumInputs sumOutputs
          drain dustThreshold result) := by
  subst ran
  by_cases short : sumInputs < sumOutputs
  · exact .inl ⟨short, processFees_short short⟩
  have covers := not_lt.mp short
  by_cases fits : fees.Fits weightWithChange
  · right
    right
    by_cases unpaid : sumInputs < sumOutputs + fees.of weightWoChange
    · exact .inl ⟨covers, fits, unpaid,
        processFees_unpaid ordered fits covers unpaid⟩
    have paid := not_lt.mp unpaid
    right
    by_cases under :
        sumInputs < sumOutputs + fees.of weightWoChange + dustThreshold
    · exact .inr ⟨fits, _, processFees_underDust ordered fits paid under,
        .underDust paid under⟩
    have above := not_lt.mp under
    by_cases below : sumInputs < sumOutputs + fees.of weightWithChange
    · exact .inl ⟨fits, above, below,
        processFees_underflow ordered fits above below⟩
    have paidWith := not_lt.mp below
    by_cases dust :
        sumInputs < sumOutputs + fees.of weightWithChange + dustThreshold
    · exact .inr ⟨fits, _,
        processFees_createDust ordered fits above paidWith dust,
        .createDust above paidWith dust⟩
    · have worth := not_lt.mp dust
      exact .inr ⟨fits, _, processFees_settled ordered fits worth,
        .settled worth⟩
  · exact .inr (.inl ⟨covers, fits, processFees_overflow covers fits⟩)

theorem processFees_shared
    {result : FeeResult}
    (ran :
      processFees fees weightWoChange weightWithChange sumInputs sumOutputs
        drain dustThreshold = .ok result)
    (clean : result.error = none) :
    fees.Fits weightWithChange ∧
      Shared fees weightWoChange weightWithChange sumInputs sumOutputs drain
        dustThreshold result := by
  rcases processFees_cases ordered ran with
    ⟨_, same⟩ | ⟨_, _, same⟩ | ⟨_, _, _, same⟩ | ⟨_, _, _, same⟩ |
      ⟨fits, found, same, shared⟩
  · cases same
    cases clean
  · cases same
  · cases same
    cases clean
  · cases same
  · cases same
    exact ⟨fits, shared⟩

end Conservation

/-- `process_fees` is exact: it returns; the error says that the inputs do not
cover the outputs and the fee without change; and a result without an error
gives the whole allowance to the fee and a drain that is not dust. -/
def ConservesValue
    (fees : Fees)
    (weightWoChange weightWithChange sumInputs sumOutputs : Nat)
    (drain : Drain)
    (dustThreshold : Nat) : Prop :=
  ∃ result,
    processFees fees weightWoChange weightWithChange sumInputs sumOutputs
        drain dustThreshold = .ok result ∧
    (result.error ≠ none ↔
      sumInputs < sumOutputs + fees.of weightWoChange) ∧
    (result.error = none →
      ∃ fee, result.fees = some fee ∧
        (drain ≠ .none →
          sumOutputs + fee + result.change.getD 0 + result.max.getD 0 =
            sumInputs) ∧
        fees.of weightWoChange ≤ fee ∧
        (∀ change, result.change = some change → dustThreshold ≤ change) ∧
        (∀ max, result.max = some max → dustThreshold ≤ max))

/-- The allowance is not above the fee without change and dust but below the
fee with change, and that fee can be computed. -/
def AllowanceSafe
    (fees : Fees)
    (weightWoChange weightWithChange sumInputs sumOutputs
      dustThreshold : Nat) : Prop :=
  sumInputs < sumOutputs ∨
    (fees.Fits weightWithChange ∧
      ¬ (sumOutputs + fees.of weightWoChange + dustThreshold ≤ sumInputs ∧
        sumInputs < sumOutputs + fees.of weightWithChange))

theorem Shared.conserves
    {weightWoChange weightWithChange sumInputs sumOutputs : Nat}
    {drain : Drain}
    {dustThreshold : Nat}
    {result : FeeResult}
    (ordered : weightWoChange ≤ weightWithChange)
    (shared :
      Shared fees weightWoChange weightWithChange sumInputs sumOutputs drain
        dustThreshold result) :
    sumOutputs + fees.of weightWoChange ≤ sumInputs ∧
    result.error = none ∧
    ∃ fee, result.fees = some fee ∧
      (drain ≠ .none →
        sumOutputs + fee + result.change.getD 0 + result.max.getD 0 =
          sumInputs) ∧
      fees.of weightWoChange ≤ fee ∧
      (∀ change, result.change = some change → dustThreshold ≤ change) ∧
      (∀ max, result.max = some max → dustThreshold ≤ max) := by
  have heavier := fees.of_mono ordered
  cases shared with
  | underDust paid under =>
      refine ⟨paid, rfl, _, rfl, ?_, ?_, ?_, ?_⟩
      · intro drained
        simp only [FeeResult.spent, FeeResult.empty, Option.getD_none]
        omega
      · omega
      · intro change impossible
        cases impossible
      · intro max impossible
        cases impossible
  | createDust above paid dust =>
      refine ⟨by omega, rfl, _, rfl, ?_, ?_, ?_, ?_⟩
      · intro drained
        simp only [FeeResult.spent, FeeResult.empty, Option.getD_none]
        omega
      · omega
      · intro change impossible
        cases impossible
      · intro max impossible
        cases impossible
  | settled worth =>
      refine ⟨by omega, settled_error _ _ _ drain, ?_⟩
      cases drain with
      | none =>
          refine ⟨_, rfl, ?_, le_rfl, ?_, ?_⟩
          · intro drained
            exact absurd rfl drained
          · intro change impossible
            cases impossible
          · intro max impossible
            cases impossible
      | change =>
          refine ⟨_, rfl, ?_, heavier, ?_, ?_⟩
          · intro drained
            simp only [Drain.settled, FeeResult.empty, Option.getD_some,
              Option.getD_none]
            omega
          · intro change same
            cases same
            omega
          · intro max impossible
            cases impossible
      | max =>
          refine ⟨_, rfl, ?_, le_rfl, ?_, ?_⟩
          · intro drained
            simp only [Drain.settled, FeeResult.empty, Option.getD_some,
              Option.getD_none]
            omega
          · intro change impossible
            cases impossible
          · intro max same
            cases same
            omega

/-- `process_fees` is exact exactly where the allowance is safe. -/
theorem processFees_conserves_iff
    (fees : Fees)
    {weightWoChange weightWithChange : Nat}
    (ordered : weightWoChange ≤ weightWithChange)
    (sumInputs sumOutputs : Nat)
    (drain : Drain)
    (dustThreshold : Nat) :
    ConservesValue fees weightWoChange weightWithChange sumInputs sumOutputs
        drain dustThreshold ↔
      AllowanceSafe fees weightWoChange weightWithChange sumInputs sumOutputs
        dustThreshold := by
  have ends :=
    processFees_cases ordered
      (Eq.refl
        (processFees fees weightWoChange weightWithChange sumInputs
          sumOutputs drain dustThreshold))
  rcases ends with
    ⟨short, ran⟩ | ⟨covers, exceeds, ran⟩ | ⟨covers, fits, unpaid, ran⟩ |
      ⟨fits, above, below, ran⟩ | ⟨fits, result, ran, shared⟩
  · constructor
    · intro conserves
      exact .inl short
    · intro safe
      refine ⟨_, ran, ?_, ?_⟩
      · simp only [FeeResult.failed_error]
        constructor
        · intro failed
          omega
        · intro unpaid
          exact Option.some_ne_none _
      · intro impossible
        cases impossible
  · constructor
    · rintro ⟨result, returned, _, _⟩
      rw [ran] at returned
      cases returned
    · rintro (short | ⟨fits, _⟩)
      · omega
      · exact absurd fits exceeds
  · constructor
    · intro conserves
      right
      refine ⟨fits, ?_⟩
      rintro ⟨above, below⟩
      omega
    · intro safe
      refine ⟨_, ran, ?_, ?_⟩
      · simp only [FeeResult.failed_error]
        constructor
        · intro failed
          exact unpaid
        · intro same
          exact Option.some_ne_none _
      · intro impossible
        cases impossible
  · constructor
    · rintro ⟨result, returned, _, _⟩
      rw [ran] at returned
      cases returned
    · rintro (short | ⟨_, apart⟩)
      · omega
      · exact absurd ⟨above, below⟩ apart
  · have exact := shared.conserves ordered
    constructor
    · intro conserves
      right
      refine ⟨fits, ?_⟩
      rintro ⟨above, below⟩
      cases shared with
      | underDust paid under => omega
      | createDust _ paid dust => omega
      | settled worth => omega
    · intro safe
      obtain ⟨paid, clean, fee, shares⟩ := exact
      refine ⟨result, ran, ?_, ?_⟩
      · rw [clean]
        constructor
        · intro failed
          exact absurd rfl failed
        · intro unpaid
          omega
      · intro same
        exact ⟨fee, shares⟩

/-- Below the default dust threshold the allowance is safe at any rate that
fits. -/
theorem processFees_conserves_iff_sample :
    (616 : Nat) ≤ 788 ∧
      (ConservesValue (.milliSatsVb 1000) 616 788 9889 5000 .change 5000 ↔
        AllowanceSafe (.milliSatsVb 1000) 616 788 9889 5000 5000) :=
  ⟨by decide,
    processFees_conserves_iff (.milliSatsVb 1000) (by decide) 9889 5000
      .change 5000⟩

/-- At a thousand satoshis a byte an allowance of 160 000 lies 6 000 above the
fee without change and 37 000 below the fee with it. -/
theorem processFees_between_fees :
    ¬ ConservesValue (.milliSatsVb 1000000) 616 788 200000 40000 .change
      5000 := by
  have ran :
      processFees (.milliSatsVb 1000000) 616 788 200000 40000 .change 5000 =
        .error (.panic .overflow) :=
    processFees_underflow (by decide) (by decide) (by decide) (by decide)
  rintro ⟨result, returned, _⟩
  rw [ran] at returned
  cases returned

end Bwk.Tx
