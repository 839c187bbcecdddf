import Bwk.TxFees
import Bwk.TxStore

namespace Bwk.Tx

/-!
# Transaction templates

The data of `tx/src/transaction.rs` and `tx/src/recipient.rs`: coins, the
recipients a template pays, the estimated weight, and the two checks made on a
finished list of outputs.

What `bitcoin` and `miniscript` derive from a descriptor is a parameter; keys
and descriptors are passed on and never interpreted here.
-/

/-- A secret key, passed on and never interpreted here. -/
abbrev SecretKey := Nat

/-- A public key, passed on and never interpreted here. -/
abbrev PublicKey := Nat

/-- An output descriptor: which one, and whether its keys are of the main
network. -/
structure Descriptor where
  id : Nat
  mainnet : Bool
  deriving Repr, DecidableEq

/-- The keychain an address is derived on. -/
inductive KeyChain where
  | receive
  | change
  | custom (chain : Nat)
  deriving Repr, DecidableEq

inductive CoinStatus where
  | unconfirmed
  | confirmedUnverified
  | confirmed
  | beingSpend
  | spent
  deriving Repr, DecidableEq

/-- What signing a coin needs. -/
inductive CoinSpendInfo where
  | bip32 (coinPath : KeyChain × Nat) (descriptor : Descriptor)
  | sp (derivation : List Nat) (tweak : Nat)
  deriving Repr, DecidableEq

/-- A spendable output. -/
structure Coin where
  txout : TxOut
  outpoint : OutPoint
  height : Option Nat
  sequence : Nat
  status : CoinStatus
  label : Option String
  satisfactionSize : Nat
  spendInfo : CoinSpendInfo
  deriving Repr, DecidableEq

namespace Coin

def value (coin : Coin) : Nat :=
  coin.txout.value

/-- The unsigned input that spends a coin. -/
def toTxIn (coin : Coin) : TxIn where
  previousOutput := coin.outpoint
  scriptSig := 0
  sequence := coin.sequence
  witness := []

end Coin

/-- The fields of a PSBT input a builder fills in. -/
structure PsbtInput where
  witnessUtxo : Option TxOut
  /-- What the descriptor of the coin adds. -/
  derived : Option Nat
  deriving Repr, DecidableEq

/-- The fields of a PSBT output a builder fills in. -/
structure PsbtOutput where
  /-- What the descriptor of the recipient adds. -/
  derived : Option Nat
  spV0Info : Option (PublicKey × PublicKey)
  spV0Label : Option Nat
  deriving Repr, DecidableEq

def PsbtOutput.empty : PsbtOutput :=
  ⟨none, none, none⟩

/-- What `miniscript` derives from a descriptor, unless it fails. -/
structure Miniscript where
  updateInput : Descriptor → KeyChain × Nat → Option Nat
  updateOutput : Descriptor → KeyChain × Nat → Option Nat

def Coin.toPsbtInput
    (miniscript : Miniscript)
    (coin : Coin) : Option PsbtInput :=
  match coin.spendInfo with
  | .bip32 coinPath descriptor =>
      (miniscript.updateInput descriptor coinPath).map
        (fun fields => ⟨some coin.txout, some fields⟩)
  | .sp _ _ =>
      some ⟨some coin.txout, none⟩

/-- The amount of an output: fixed, what the others leave, or nothing. -/
inductive Amount where
  | value (sat : Nat)
  | max (sat : Option Nat)
  | anchor
  deriving Repr, DecidableEq

/-- What signers learn of an output. -/
inductive PsbtOutputInfo where
  | bip32 (origin : KeyChain × Nat) (descriptor : Descriptor)
  | silentPayment
      (scanPubkey spendPubkey : PublicKey)
      (label : Option Nat)
  | none
  deriving Repr, DecidableEq

/-- What a recipient may need to create its script. -/
structure FinalizationContext where
  inputs : List Coin
  partialSecret : Option SecretKey
  network : Network
  deriving Repr, DecidableEq

/-- The operations of a recipient. -/
class RecipientProvider (R : Type) where
  outputWeight : R → Nat
  /-- The script, and the recipient that remembers having created it. -/
  createScript : FinalizationContext → R → Except Panic (ScriptBuf × R)
  psbtOutputInfo : R → Except Panic PsbtOutputInfo
  isSilentPayment : R → Bool
  isChange : R → Bool
  amount : R → Amount
  setAmount : Amount → R → R
  setPrecomputedScript : ScriptBuf → R → R
  toPsbtOutput : Miniscript → R → Option PsbtOutput
  network : R → Network

open RecipientProvider

/-- Setting the amount or the script of a recipient leaves what else it is
alone. -/
class LawfulRecipient (R : Type) [RecipientProvider R] : Prop where
  amount_setAmount :
    ∀ (wanted : Amount) (recipient : R),
      amount (setAmount wanted recipient) = wanted
  outputWeight_setAmount :
    ∀ (wanted : Amount) (recipient : R),
      outputWeight (setAmount wanted recipient) = outputWeight recipient
  isChange_setAmount :
    ∀ (wanted : Amount) (recipient : R),
      isChange (setAmount wanted recipient) = isChange recipient
  amount_setPrecomputedScript :
    ∀ (script : ScriptBuf) (recipient : R),
      amount (setPrecomputedScript script recipient) = amount recipient

attribute [simp]
  LawfulRecipient.amount_setAmount
  LawfulRecipient.outputWeight_setAmount
  LawfulRecipient.isChange_setAmount
  LawfulRecipient.amount_setPrecomputedScript

/-- More than all bitcoin there will be. -/
def maxMoney : Nat := 2100000000000000

section Amounts

variable {R : Type} [RecipientProvider R]

/-- The satoshis an output is counted with. -/
def outputAmount (recipient : R) : Nat :=
  match amount recipient with
  | .value sat => sat
  | .max (some sat) => sat
  | .max none | .anchor => 0

/-- The satoshis an output is built with. -/
def outputBitcoinAmount (recipient : R) : Nat :=
  match amount recipient with
  | .value sat => sat
  | .max (some sat) => sat
  | .max none => maxMoney
  | .anchor => 0

/-- The satoshis the outputs are counted with. -/
def sumOutputAmounts (outputs : List R) : Outcome Nat :=
  sumU64 (outputs.map outputAmount)

end Amounts

/-- What a transaction is built from. -/
structure TxTemplate (R : Type) where
  inputs : List Coin
  outputs : List R
  fees : Fees
  dustThreshold : Nat

/-- The dust threshold of a new builder. -/
def dustAmount : Nat := 5000

def estimatedWeightRaw
    (inputSatisfactionWeights outputWeights : List Nat) : Outcome Nat := do
  -- version, lock time and the two counts, and the segwit marker and flag
  let weight ←
    inputSatisfactionWeights.foldlM
      (fun weight satisfaction => do
        let input ← addU64 164 satisfaction
        addU64 weight input)
      (40 + 2)
  let weight ← outputWeights.foldlM addU64 weight
  let weight ←
    if 253 ≤ inputSatisfactionWeights.length then addU64 weight (2 * 4)
    else Except.ok weight
  if 253 ≤ outputWeights.length then addU64 weight (2 * 4)
  else Except.ok weight

section Weights

variable {R : Type} [RecipientProvider R]

def txEstimatedWeight (template : TxTemplate R) : Outcome Nat :=
  estimatedWeightRaw
    (template.inputs.map Coin.satisfactionSize)
    (template.outputs.map outputWeight)

end Weights

/-- The weight the estimate is the exact sum of. -/
def rawWeight (inputSatisfactionWeights outputWeights : List Nat) : Nat :=
  42 + (inputSatisfactionWeights.map (164 + ·)).sum + outputWeights.sum +
    (if 253 ≤ inputSatisfactionWeights.length then 8 else 0) +
    (if 253 ≤ outputWeights.length then 8 else 0)

theorem foldlM_inputs
    (satisfactions : List Nat)
    {start : Nat}
    (fits : start ≤ u64Max) :
    (satisfactions.foldlM
      (fun weight satisfaction => do
        let input ← addU64 164 satisfaction
        addU64 weight input)
      start : Outcome Nat) =
      fitU64 (start + (satisfactions.map (164 + ·)).sum) := by
  induction satisfactions generalizing start with
  | nil => simp [fitU64, fits, pure, Except.pure]
  | cons satisfaction rest ih =>
      rw [List.foldlM_cons, List.map_cons, List.sum_cons, ← Nat.add_assoc]
      by_cases input : 164 + satisfaction ≤ u64Max
      · have added :
            (addU64 164 satisfaction : Outcome Nat) =
              .ok (164 + satisfaction) :=
          fitU64_of_le input
        rw [added, ok_bind]
        by_cases next : start + (164 + satisfaction) ≤ u64Max
        · have sum :
              (addU64 start (164 + satisfaction) : Outcome Nat) =
                .ok (start + (164 + satisfaction)) :=
            fitU64_of_le next
          rw [sum, ok_bind, ih next]
        · have overflowed :
              (addU64 start (164 + satisfaction) : Outcome Nat) =
                .error Overflows.overflow :=
            fitU64_of_gt (not_le.mp next)
          rw [overflowed, error_bind, fitU64_of_gt]
          omega
      · have overflowed :
            (addU64 164 satisfaction : Outcome Nat) =
              .error Overflows.overflow :=
          fitU64_of_gt (not_le.mp input)
        rw [overflowed, error_bind, error_bind, fitU64_of_gt]
        omega

theorem estimatedWeightRaw_eq
    (satisfactions weights : List Nat) :
    estimatedWeightRaw satisfactions weights =
      fitU64 (rawWeight satisfactions weights) := by
  have start : 40 + 2 ≤ u64Max := by
    decide
  by_cases inputs : 42 + (satisfactions.map (164 + ·)).sum ≤ u64Max
  · rw [estimatedWeightRaw, foldlM_inputs satisfactions start,
      fitU64_of_le inputs, ok_bind, foldlM_addU64 weights inputs]
    by_cases outputs :
        42 + (satisfactions.map (164 + ·)).sum + weights.sum ≤ u64Max
    · rw [fitU64_of_le outputs, ok_bind, rawWeight]
      by_cases manyInputs : 253 ≤ satisfactions.length
      · simp only [manyInputs, if_true, addU64]
        by_cases counted :
            42 + (satisfactions.map (164 + ·)).sum + weights.sum + 2 * 4 ≤
              u64Max
        · rw [fitU64_of_le counted, ok_bind]
          by_cases manyOutputs : 253 ≤ weights.length
          · simp only [manyOutputs, if_true]
          · simp only [manyOutputs, if_false, Nat.add_zero]
            rw [fitU64_of_le counted]
        · rw [fitU64_of_gt (not_le.mp counted), error_bind, fitU64_of_gt]
          omega
      · simp only [manyInputs, if_false, ok_bind, addU64, Nat.add_zero]
        by_cases manyOutputs : 253 ≤ weights.length
        · simp only [manyOutputs, if_true]
        · simp only [manyOutputs, if_false, Nat.add_zero]
          rw [fitU64_of_le outputs]
    · rw [fitU64_of_gt (not_le.mp outputs), error_bind, rawWeight,
        fitU64_of_gt]
      omega
  · rw [estimatedWeightRaw, foldlM_inputs satisfactions start,
      fitU64_of_gt (not_le.mp inputs), error_bind, rawWeight, fitU64_of_gt]
    omega

def coinTotal (inputs : List Coin) : Nat :=
  (inputs.map Coin.value).sum

section Totals

variable {R : Type} [RecipientProvider R]

def amountTotal (outputs : List R) : Nat :=
  (outputs.map outputAmount).sum

/-- What the outputs that are no change are counted with. -/
def paidTotal (outputs : List R) : Nat :=
  ((outputs.filter (fun output => !isChange output)).map outputAmount).sum

def weightOf (inputs : List Coin) (outputs : List R) : Nat :=
  rawWeight (inputs.map Coin.satisfactionSize) (outputs.map outputWeight)

theorem txEstimatedWeight_eq
    (template : TxTemplate R) :
    txEstimatedWeight template =
      fitU64 (weightOf template.inputs template.outputs) :=
  estimatedWeightRaw_eq _ _

variable (outputs : List R) {left right : List R} {output : R}

theorem sumOutputAmounts_eq :
    sumOutputAmounts outputs = fitU64 (amountTotal outputs) :=
  sumU64_eq _

theorem coinTotal_perm
    {left right : List Coin}
    (same : left.Perm right) :
    coinTotal left = coinTotal right :=
  (same.map Coin.value).sum_eq

theorem amountTotal_perm
    (same : left.Perm right) :
    amountTotal left = amountTotal right :=
  (same.map outputAmount).sum_eq

theorem paidTotal_perm
    (same : left.Perm right) :
    paidTotal left = paidTotal right :=
  ((same.filter _).map outputAmount).sum_eq

theorem weightOf_perm
    {inputs inputs' : List Coin}
    {outputs outputs' : List R}
    (sameInputs : inputs.Perm inputs')
    (sameOutputs : outputs.Perm outputs') :
    weightOf inputs outputs = weightOf inputs' outputs' := by
  have inputSum :=
    ((sameInputs.map Coin.satisfactionSize).map (164 + ·)).sum_eq
  have outputSum := (sameOutputs.map outputWeight).sum_eq
  simp only [weightOf, rawWeight, List.length_map, inputSum, outputSum,
    sameInputs.length_eq, sameOutputs.length_eq]

@[simp]
theorem amountTotal_append
    (left right : List R) :
    amountTotal (left ++ right) = amountTotal left + amountTotal right := by
  simp [amountTotal]

@[simp]
theorem amountTotal_cons
    (output : R)
    (rest : List R) :
    amountTotal (output :: rest) =
      outputAmount output + amountTotal rest := by
  simp [amountTotal]

@[simp]
theorem paidTotal_append
    (left right : List R) :
    paidTotal (left ++ right) = paidTotal left + paidTotal right := by
  simp [paidTotal]

theorem paidTotal_cons_change
    (change : isChange output = true)
    (rest : List R) :
    paidTotal (output :: rest) = paidTotal rest := by
  simp [paidTotal, change]

theorem paidTotal_cons_paid
    (paid : isChange output = false)
    (rest : List R) :
    paidTotal (output :: rest) = outputAmount output + paidTotal rest := by
  simp [paidTotal, paid]

theorem paidTotal_le :
    paidTotal outputs ≤ amountTotal outputs := by
  induction outputs with
  | nil => exact le_rfl
  | cons output rest ih =>
      rw [amountTotal_cons]
      by_cases change : isChange output = true
      · rw [paidTotal_cons_change change]
        omega
      · rw [paidTotal_cons_paid (Bool.not_eq_true _ ▸ change)]
        omega

end Totals

section Checks

variable {R : Type} [RecipientProvider R]

/-- Refuse a fee above a share of what is paid and above an amount. -/
def checkDisproportionateFee
    (inputs : List Coin)
    (outputs : List R)
    (maxFeePercent maxFeeAmount : Nat) : Outcome Unit := do
  let sumInputs ← sumU64 (inputs.map Coin.value)
  let sumOutputs ← sumOutputAmounts outputs
  let fee := sumInputs - sumOutputs
  let paidOutputs ←
    sumU64
      ((outputs.filter (fun output => !isChange output)).map outputAmount)
  if paidOutputs = 0 then
    return ()
  else
    let share ← mulU64 paidOutputs maxFeePercent
    if fee > share / 100 ∧ fee > maxFeeAmount then
      throw (.err (.disproportionateFees fee paidOutputs maxFeePercent
        maxFeeAmount))
    else
      return ()

/-- Refuse to lose more than dust to the fee of a transaction without
change. -/
def checkMissingChange
    (inputs : List Coin)
    (outputs : List R)
    (fees : Fees)
    (dustThreshold : Nat) : Outcome Unit :=
  if outputs.any isChange then
    return ()
  else do
    let sumInputs ← sumU64 (inputs.map Coin.value)
    let sumOutputs ← sumOutputAmounts outputs
    let fee := sumInputs - sumOutputs
    if fee ≤ dustThreshold then
      return ()
    else
      let estimatedFee ←
        match fees with
        | .sats fee => pure fee
        | .milliSatsVb rate => do
            let weight ←
              txEstimatedWeight
                (⟨inputs, outputs, fees, dustThreshold⟩ : TxTemplate R)
            rateFee weight rate
      let excess := fee - estimatedFee
      if excess > dustThreshold then
        throw (.err (.missingChange excess))
      else
        return ()

def Disproportionate
    (fee paidOutputs maxFeePercent maxFeeAmount : Nat) : Prop :=
  paidOutputs ≠ 0 ∧ paidOutputs * maxFeePercent / 100 < fee ∧
    maxFeeAmount < fee

instance (fee paidOutputs maxFeePercent maxFeeAmount : Nat) :
    Decidable
      (Disproportionate fee paidOutputs maxFeePercent maxFeeAmount) :=
  inferInstanceAs (Decidable (_ ∧ _ ∧ _))

/-- The sums and the product of the fee check fit. -/
structure ProportionFits
    (inputs : List Coin)
    (outputs : List R)
    (maxFeePercent : Nat) : Prop where
  inputsFit : coinTotal inputs ≤ u64Max
  outputsFit : amountTotal outputs ≤ u64Max
  shareFits : paidTotal outputs * maxFeePercent ≤ u64Max

variable {inputs : List Coin} {outputs : List R} {fees : Fees}

theorem checkDisproportionateFee_of_fits
    {maxFeePercent : Nat}
    (fits : ProportionFits inputs outputs maxFeePercent)
    (maxFeeAmount : Nat) :
    checkDisproportionateFee inputs outputs maxFeePercent maxFeeAmount =
      if
        Disproportionate (coinTotal inputs - amountTotal outputs)
          (paidTotal outputs) maxFeePercent maxFeeAmount
      then
        .error (.err (.disproportionateFees
          (coinTotal inputs - amountTotal outputs) (paidTotal outputs)
          maxFeePercent maxFeeAmount))
      else
        .ok () := by
  have sumInputs :
      (sumU64 (inputs.map Coin.value) : Outcome Nat) =
        .ok (coinTotal inputs) :=
    (sumU64_eq _).trans (fitU64_of_le fits.inputsFit)
  have sumOutputs : sumOutputAmounts outputs = .ok (amountTotal outputs) :=
    (sumOutputAmounts_eq outputs).trans (fitU64_of_le fits.outputsFit)
  have paid :
      (sumU64
        ((outputs.filter (fun output => !isChange output)).map
          outputAmount) : Outcome Nat) =
        .ok (paidTotal outputs) :=
    (sumU64_eq _).trans
      (fitU64_of_le (le_trans (paidTotal_le outputs) fits.outputsFit))
  have share :
      (mulU64 (paidTotal outputs) maxFeePercent : Outcome Nat) =
        .ok (paidTotal outputs * maxFeePercent) :=
    fitU64_of_le fits.shareFits
  simp only [checkDisproportionateFee, sumInputs, sumOutputs, paid, share,
    ok_bind]
  by_cases unpaid : paidTotal outputs = 0
  · have proportionate :
        ¬ Disproportionate (coinTotal inputs - amountTotal outputs)
          (paidTotal outputs) maxFeePercent maxFeeAmount :=
      fun refused => refused.1 unpaid
    rw [if_pos unpaid, if_neg proportionate]
    rfl
  · simp only [Disproportionate, unpaid, if_false, ne_eq, not_false_eq_true,
      true_and, gt_iff_lt]
    rfl

theorem checkDisproportionateFee_fits
    {maxFeePercent maxFeeAmount : Nat}
    (returned :
      checkDisproportionateFee inputs outputs maxFeePercent maxFeeAmount ≠
        .error (.panic .overflow)) :
    ProportionFits inputs outputs maxFeePercent := by
  by_cases inputsFit : coinTotal inputs ≤ u64Max
  · have sumInputs :
        (sumU64 (inputs.map Coin.value) : Outcome Nat) =
          .ok (coinTotal inputs) :=
      (sumU64_eq _).trans (fitU64_of_le inputsFit)
    by_cases outputsFit : amountTotal outputs ≤ u64Max
    · refine ⟨inputsFit, outputsFit, ?_⟩
      by_contra exceeds
      have paid : paidTotal outputs ≠ 0 := by
        intro none
        simp [none] at exceeds
      have sumOutputs :
          sumOutputAmounts outputs = .ok (amountTotal outputs) :=
        (sumOutputAmounts_eq outputs).trans (fitU64_of_le outputsFit)
      have paidSum :
          (sumU64
            ((outputs.filter (fun output => !isChange output)).map
              outputAmount) : Outcome Nat) =
            .ok (paidTotal outputs) :=
        (sumU64_eq _).trans
          (fitU64_of_le (le_trans (paidTotal_le outputs) outputsFit))
      have share :
          (mulU64 (paidTotal outputs) maxFeePercent : Outcome Nat) =
            .error (.panic .overflow) :=
        fitU64_of_gt (not_le.mp exceeds)
      apply returned
      simp only [checkDisproportionateFee, sumInputs, sumOutputs, paidSum,
        ok_bind, paid, if_false, share, error_bind]
    · have sumOutputs :
          sumOutputAmounts outputs = .error (.panic .overflow) :=
        (sumOutputAmounts_eq outputs).trans
          (fitU64_of_gt (not_le.mp outputsFit))
      exact absurd
        (by simp only [checkDisproportionateFee, sumInputs, sumOutputs,
              ok_bind, error_bind])
        returned
  · have sumInputs :
        (sumU64 (inputs.map Coin.value) : Outcome Nat) =
          .error (.panic .overflow) :=
      (sumU64_eq _).trans (fitU64_of_gt (not_le.mp inputsFit))
    exact absurd
      (by simp only [checkDisproportionateFee, sumInputs, error_bind])
      returned

theorem checkMissingChange_of_change
    {dustThreshold : Nat}
    (change : outputs.any isChange = true) :
    checkMissingChange inputs outputs fees dustThreshold = .ok () :=
  if_pos change

/-- Without a change output, the change check refuses exactly an excess over
the fee that is not dust. -/
theorem checkMissingChange_of_fits
    (unchanged : outputs.any isChange = false)
    (inputsFit : coinTotal inputs ≤ u64Max)
    (outputsFit : amountTotal outputs ≤ u64Max)
    (weightFits : weightOf inputs outputs ≤ u64Max)
    (feeFits : fees.Fits (weightOf inputs outputs))
    (dustThreshold : Nat) :
    checkMissingChange inputs outputs fees dustThreshold =
      if
        dustThreshold <
          coinTotal inputs - amountTotal outputs -
            fees.of (weightOf inputs outputs)
      then
        .error (.err (.missingChange
          (coinTotal inputs - amountTotal outputs -
            fees.of (weightOf inputs outputs))))
      else
        .ok () := by
  have sumInputs :
      (sumU64 (inputs.map Coin.value) : Outcome Nat) =
        .ok (coinTotal inputs) :=
    (sumU64_eq _).trans (fitU64_of_le inputsFit)
  have sumOutputs : sumOutputAmounts outputs = .ok (amountTotal outputs) :=
    (sumOutputAmounts_eq outputs).trans (fitU64_of_le outputsFit)
  simp only [checkMissingChange, unchanged, Bool.false_eq_true, if_false,
    sumInputs, sumOutputs, ok_bind]
  by_cases small : coinTotal inputs - amountTotal outputs ≤ dustThreshold
  · have within :
        ¬ dustThreshold <
          coinTotal inputs - amountTotal outputs -
            fees.of (weightOf inputs outputs) := by
      omega
    rw [if_pos small, if_neg within]
    rfl
  · cases fees with
    | sats fee =>
        simp only [small, if_false, pure_bind, gt_iff_lt]
        rfl
    | milliSatsVb rate =>
        simp only [small, if_false, txEstimatedWeight_eq,
          fitU64_of_le weightFits, ok_bind, rateFee_of_fits feeFits,
          gt_iff_lt]
        rfl

end Checks

end Bwk.Tx
