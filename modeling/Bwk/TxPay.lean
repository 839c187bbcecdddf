import Bwk.TxConserves
import Bwk.TxSelection

namespace Bwk.Tx

open RecipientProvider

/-!
# Paying at a rate

`pay` and `sweep` of `tx/src/tx_builder.rs` take a rate, pick coins at it and
compare the fee with it in the end, but the fee itself is set by the template:
a thousand millisatoshis a byte for `pay`, whatever the builder was left with
for `sweep`; and the comparison is with the unsigned size.
-/

namespace TxBuilder

variable {P : Type} [RecipientProvider P]

/-- Start over with nothing to spend and nobody to pay. -/
def newTemplate
    (builder : TxBuilder (BoxedRecipient P)) :
    TxBuilder (BoxedRecipient P) :=
  { builder with
    txTemplate :=
      ⟨[], [], .milliSatsVb 1000, builder.txTemplate.dustThreshold⟩ }

/-- Spend a coin, if it is not spent already. -/
def addInput
    (builder : TxBuilder (BoxedRecipient P))
    (coin : Coin) : TxBuilder (BoxedRecipient P) :=
  if builder.txTemplate.inputs.contains coin then
    builder
  else
    { builder with
      txTemplate :=
        { builder.txTemplate with
          inputs := builder.txTemplate.inputs ++ [coin] } }

def addOutput
    (builder : TxBuilder (BoxedRecipient P))
    (recipient : Recipient) : TxBuilder (BoxedRecipient P) :=
  { builder with
    txTemplate :=
      { builder.txTemplate with
        outputs := builder.txTemplate.outputs ++ [.recipient recipient] } }

def selectCoins
    (builder : TxBuilder (BoxedRecipient P))
    (target feerate : Nat) : Outcome (List Coin) :=
  match builder.coinSource with
  | some coins => builder.coinSelector.select coins target feerate
  | none => return []

def payInputs
    (builder : TxBuilder (BoxedRecipient P))
    (amount : Amount)
    (feerate : Nat) : Outcome (List Coin) := do
  let weight ← txEstimatedWeight builder.txTemplate
  let baseFee ← rateFee weight feerate
  if ¬ builder.txTemplate.inputs.isEmpty then
    return builder.txTemplate.inputs
  else
    match amount with
    | .value sat => do
        let target ← addU64 sat baseFee
        builder.selectCoins target feerate
    | .max _ => return builder.coinSource.getD []
    | .anchor => throw (.err .payToAnchor)

def readyToPay
    (builder : TxBuilder (BoxedRecipient P))
    (amount : Amount)
    (address : Address)
    (feerate : Nat)
    (label : Option String) : Outcome (TxBuilder (BoxedRecipient P)) := do
  let builder := builder.addOutput ⟨address, amount, label, none, none⟩
  let coins ← builder.payInputs amount feerate
  if coins.isEmpty then
    throw (.err .coinSelection)
  else
    return coins.foldl addInput builder

def conclude
    (builder : TxBuilder (BoxedRecipient P))
    (crate : TxCrate)
    (miniscript : Miniscript)
    (shuffle : Shuffle Coin × Shuffle (BoxedRecipient P))
    (feerate : Nat) : Outcome Psbt := do
  let result ← builder.simulate
  let psbt ← builder.generate miniscript shuffle
  let minFee ← rateFee (crate.weight psbt.unsignedTx) feerate
  match result.fees with
  | some fees =>
      if minFee > fees then
        throw (.err .coinSelectionFee)
      else
        return psbt
  | none => throw (.err .coinSelectionFee)

def payFromTemplate
    (builder : TxBuilder (BoxedRecipient P))
    (crate : TxCrate)
    (miniscript : Miniscript)
    (shuffle : Shuffle Coin × Shuffle (BoxedRecipient P))
    (amount : Amount)
    (address : Address)
    (feerate : Nat)
    (label : Option String) : Outcome Psbt := do
  let ready ← builder.readyToPay amount address feerate label
  ready.conclude crate miniscript shuffle feerate

def pay
    (builder : TxBuilder (BoxedRecipient P))
    (crate : TxCrate)
    (miniscript : Miniscript)
    (shuffle : Shuffle Coin × Shuffle (BoxedRecipient P))
    (amount : Nat)
    (address : Address)
    (feerate : Nat) : Outcome Psbt :=
  builder.newTemplate.payFromTemplate crate miniscript shuffle
    (.value amount) address feerate none

/-- Pay everything from the template there is. -/
def sweepWithLabel
    (builder : TxBuilder (BoxedRecipient P))
    (crate : TxCrate)
    (miniscript : Miniscript)
    (shuffle : Shuffle Coin × Shuffle (BoxedRecipient P))
    (address : Address)
    (feerate : Nat)
    (label : Option String) : Outcome Psbt :=
  builder.payFromTemplate crate miniscript shuffle (.max none) address
    feerate label

/-- Pay everything without a label. -/
def sweep
    (builder : TxBuilder (BoxedRecipient P))
    (crate : TxCrate)
    (miniscript : Miniscript)
    (shuffle : Shuffle Coin × Shuffle (BoxedRecipient P))
    (address : Address)
    (feerate : Nat) : Outcome Psbt :=
  builder.sweepWithLabel crate miniscript shuffle address feerate none

end TxBuilder

section Reported

variable {R : Type} [RecipientProvider R]

def settledFee (template : TxTemplate R) (changeProvider : R) : Nat :=
  if template.outputs.any isMax then
    template.feeWoChange
  else if
    coinTotal template.inputs <
      valueTotal template.outputs +
        template.feeWithChange (some changeProvider) +
        template.dustThreshold
  then
    coinTotal template.inputs - valueTotal template.outputs
  else
    template.feeWithChange (some changeProvider)

def settledWeight (template : TxTemplate R) (changeProvider : R) : Nat :=
  if
    template.outputs.any isMax ∨
      coinTotal template.inputs <
        valueTotal template.outputs +
          template.feeWithChange (some changeProvider) +
          template.dustThreshold
  then
    weightOf template.inputs template.outputs
  else
    fullWeight template (some changeProvider) +
      if template.outputs.length = 252 then 8 else 0

variable [LawfulRecipient R]

/-- A settled template reports its fee, and its transaction has its weight. -/
theorem Settled.reports
    {template : TxTemplate R}
    {changeProvider : R}
    {result : TransactionResult R}
    (settled : Settled template (some changeProvider) result) :
    result.fees = some (settledFee template changeProvider) ∧
      weightOf template.inputs
          (result.txTemplate.outputs ++
            (result.change.map
              (fun value =>
                setAmount (.value value) changeProvider)).toList) =
        settledWeight template changeProvider := by
  have free :
      (∀ output ∈ template.outputs, isMax output = false) →
        template.outputs.any isMax = false := by
    intro fixed
    apply List.any_eq_false.mpr
    intro output member
    rw [fixed output member]
    simp
  cases settled with
  | changed fixed worth =>
      have enough :
          ¬ coinTotal template.inputs <
            valueTotal template.outputs +
              template.feeWithChange (some changeProvider) +
              template.dustThreshold := by
        omega
      refine ⟨?_, ?_⟩
      · simp only [settledFee, free fixed, Bool.false_eq_true, if_false,
          enough]
      · simp only [Option.map_some, Option.toList_some,
          weightOf_append_one, LawfulRecipient.outputWeight_setAmount,
          settledWeight, free fixed, Bool.false_eq_true, false_or, enough,
          if_false]
        rfl
  | dropped fixed paid dust warnings quiet =>
      refine ⟨?_, ?_⟩
      · simp only [settledFee, free fixed, Bool.false_eq_true, if_false,
          dust, if_true]
      · simp only [Option.map_none, Option.toList_none, List.append_nil,
          settledWeight, dust, or_true, if_true]
  | maxed before output after same drains fixedBefore fixedAfter worth =>
      have drained : template.outputs.any isMax = true := by
        rw [same, List.any_append, List.any_cons, drains]
        simp
      refine ⟨?_, ?_⟩
      · simp only [settledFee, drained, if_true]
      · simp only [Option.map_none, Option.toList_none, List.append_nil,
          weightOf_modify, settledWeight, drained, true_or, if_true]

end Reported

section Rate

variable {P : Type} [RecipientProvider P]

/-- A transaction pays its estimated signed size at a rate. -/
def RespectsFeerate
    (ready : TxBuilder (BoxedRecipient P))
    (result : TransactionResult (BoxedRecipient P))
    (psbt : Psbt)
    (feerate : Nat) : Prop :=
  (Fees.milliSatsVb feerate).of
        (weightOf ready.funding (ready.finalOutputs result)) +
      (psbt.unsignedTx.output.map TxOut.value).sum ≤
    coinTotal ready.funding

instance
    (ready : TxBuilder (BoxedRecipient P))
    (result : TransactionResult (BoxedRecipient P))
    (psbt : Psbt)
    (feerate : Nat) :
    Decidable (RespectsFeerate ready result psbt feerate) :=
  inferInstanceAs (Decidable (_ ≤ _))

/-- The fee the template sets is the one the rate asks for, at least. -/
def RateCovered
    (ready : TxBuilder (BoxedRecipient P))
    (feerate : Nat) : Prop :=
  (Fees.milliSatsVb feerate).of
      (settledWeight ready.fundedTemplate ready.changeProvider) ≤
    settledFee ready.fundedTemplate ready.changeProvider

/-- The weight of a transaction that pays one address with these coins. -/
def payWeight (coins : List Coin) (address : Address) : Nat :=
  rawWeight (coins.map Coin.satisfactionSize)
    [txOutWeight address.scriptLength]

/-- What `pay` asks its coins to leave: the amount, and the fee of all but the
inputs. -/
def payTarget (amount : Nat) (address : Address) (feerate : Nat) : Nat :=
  amount + (Fees.milliSatsVb feerate).of (payWeight [] address)

/-- The spendable coins, not too many of them economical, pay an amount and
the fee of doing so. -/
def CanPay
    (builder : TxBuilder (BoxedRecipient P))
    (amount : Nat)
    (address : Address)
    (feerate : Nat) : Prop :=
  ((builder.coinSource.getD []).filter (economical feerate)).length ≤ 20 ∧
    ∃ coins : List Coin,
      coins.Sublist (builder.coinSource.getD []) ∧
        amount + (Fees.milliSatsVb feerate).of (payWeight coins address) ≤
          coinTotal coins

/-- Errors that say that the coins do not cover the fee. -/
inductive LackOfFees : Error → Prop where
  | coinSelection : LackOfFees .coinSelection
  | notEnoughForFee : LackOfFees .notEnoughForFee
  | coinSelectionFee : LackOfFees .coinSelectionFee

/-- Economical coins leave the amount and the fee of the rest at the rate; the
coins picked cover the fee of the template, and the fee of the template covers
the unsigned size at the rate. -/
def FeesFound
    (builder : TxBuilder (BoxedRecipient P))
    (crate : TxCrate)
    (miniscript : Miniscript)
    (shuffle : Shuffle Coin × Shuffle (BoxedRecipient P))
    (amount : Nat)
    (address : Address)
    (feerate : Nat) : Prop :=
  Reachable (builder.coinSource.getD []) (payTarget amount address feerate)
      feerate ∧
    ∀ ready,
      builder.newTemplate.readyToPay (.value amount) address feerate none =
          .ok ready →
        ¬ (amount ≤ coinTotal ready.funding ∧
            coinTotal ready.funding <
              amount + ready.fundedTemplate.feeWoChange) ∧
          ∀ psbt, ready.generate miniscript shuffle = .ok psbt →
            (Fees.milliSatsVb feerate).of (crate.weight psbt.unsignedTx) ≤
              settledFee ready.fundedTemplate ready.changeProvider

/-- A returned transaction pays the rate exactly when the template's fee
covers it. -/
theorem conclude_respects_iff
    [LawfulRecipient P]
    {ready : TxBuilder (BoxedRecipient P)}
    {crate : TxCrate}
    {miniscript : Miniscript}
    {shuffle : Shuffle Coin × Shuffle (BoxedRecipient P)}
    {feerate : Nat}
    {psbt : Psbt}
    (concluded :
      ready.conclude crate miniscript shuffle feerate = .ok psbt) :
    ∃ result, ready.simulate = .ok result ∧
      LaidOut ready miniscript result psbt ∧
      (RespectsFeerate ready result psbt feerate ↔
        RateCovered ready feerate) := by
  obtain ⟨result, simulated, concluded⟩ := bind_eq_ok.mp concluded
  obtain ⟨other, built, concluded⟩ := bind_eq_ok.mp concluded
  obtain ⟨minFee, _, concluded⟩ := bind_eq_ok.mp concluded
  obtain ⟨settled, fee, delivers⟩ := generate_delivers simulated built
  obtain ⟨reported, weight⟩ := settled.reports
  have sameFee :
      fee = settledFee ready.fundedTemplate ready.changeProvider :=
    Option.some.inj (delivers.reported.symm.trans reported)
  rw [reported] at concluded
  by_cases short :
      minFee > settledFee ready.fundedTemplate ready.changeProvider
  · simp only [short, if_true] at concluded
    cases concluded
  simp only [short, if_false] at concluded
  cases concluded
  refine ⟨result, simulated, delivers.laidOut, ?_⟩
  have sameWeight :
      weightOf ready.funding (ready.finalOutputs result) =
        settledWeight ready.fundedTemplate ready.changeProvider :=
    weight
  unfold RespectsFeerate RateCovered
  rw [delivers.conserved, sameWeight, sameFee]
  omega

theorem fitU64_error
    {exact : Nat}
    {stop : Stop}
    (stopped : fitU64 exact = .error stop) :
    ∃ cause, stop = .panic cause := by
  unfold fitU64 at stopped
  split at stopped
  · cases stopped
  · cases stopped
    exact ⟨.overflow, rfl⟩

omit [RecipientProvider P] in
theorem rateFee_error
    {weight rate : Nat}
    {stop : Stop}
    (stopped : rateFee weight rate = .error stop) :
    ∃ cause, stop = .panic cause := by
  rcases bind_eq_error.mp stopped with failed | ⟨_, _, stopped⟩
  · exact fitU64_error failed
  · cases stopped

section Settling

variable {R : Type} [RecipientProvider R]

variable {template : TxTemplate R} {total : Nat} {maxed : Option Nat}
variable {changeRecipient : Option R} {stop : Stop} {error : Error}

theorem settleFees_error
    (stopped :
      settleFees template total maxed changeRecipient = .error stop) :
    ∃ cause, stop = .panic cause := by
  unfold settleFees at stopped
  rcases bind_eq_error.mp stopped with failed | ⟨_, _, stopped⟩
  · rw [sumU64_eq] at failed
    exact fitU64_error failed
  rcases bind_eq_error.mp stopped with failed | ⟨_, weighed, stopped⟩
  · rw [txEstimatedWeight_eq] at failed
    exact fitU64_error failed
  rw [txEstimatedWeight_eq, fitU64_eq_ok] at weighed
  obtain ⟨lighterFits, rfl⟩ := weighed
  rw [weightWithChange_eq template changeRecipient rfl lighterFits] at stopped
  rcases bind_eq_error.mp stopped with failed | ⟨_, weighed, stopped⟩
  · exact fitU64_error failed
  rw [fitU64_eq_ok] at weighed
  obtain ⟨_, rfl⟩ := weighed
  rcases bind_eq_error.mp stopped with failed | ⟨shared, _, stopped⟩
  · rcases processFees_cases
        (weightOf_le_fullWeight template changeRecipient) failed with
      ⟨_, same⟩ | ⟨_, _, same⟩ | ⟨_, _, _, same⟩ | ⟨_, _, _, same⟩ |
        ⟨_, _, same, _⟩
    · cases same
    · cases same
      exact ⟨_, rfl⟩
    · cases same
    · cases same
      exact ⟨_, rfl⟩
    · cases same
  cases failed : shared.error with
  | some error =>
      rw [failed] at stopped
      cases stopped
  | none =>
      rw [failed] at stopped
      rcases bind_eq_error.mp stopped with warned | ⟨_, _, stopped⟩
      · rcases bind_eq_error.mp warned with checked | ⟨checked, _, warned⟩
        · obtain ⟨cause, same, _⟩ := attempt_eq_panic.mp checked
          exact ⟨cause, same⟩
        · cases checked <;> cases warned
      · unfold placeDrain at stopped
        split at stopped <;> cases stopped
        exact ⟨_, rfl⟩

/-- The errors in the result of settling say what the inputs do not cover. -/
theorem settleFees_failed
    {result : TransactionResult R}
    (ran : settleFees template total maxed changeRecipient = .ok result)
    (failed : result.error = some error) :
    (error = .addInput ∧ coinTotal template.inputs < total) ∨
      (error = .notEnoughForFee ∧ total ≤ coinTotal template.inputs ∧
        coinTotal template.inputs < total + template.feeWoChange) := by
  simp only [settleFees, bind_eq_ok, sumU64_eq_ok, txEstimatedWeight_eq,
    fitU64_eq_ok] at ran
  obtain ⟨_, ⟨_, rfl⟩, _, ⟨lighterFits, rfl⟩, heavier, weighed, shared,
    sharing, settled⟩ := ran
  rw [weightWithChange_eq template changeRecipient rfl lighterFits,
    fitU64_eq_ok] at weighed
  obtain ⟨_, rfl⟩ := weighed
  cases found : shared.error with
  | none =>
      rw [found] at settled
      obtain ⟨_, _, placed⟩ := bind_eq_ok.mp settled
      rw [placeDrain_error placed] at failed
      cases failed
  | some other =>
      rw [found] at settled
      cases settled
      cases failed
      rcases processFees_cases
          (weightOf_le_fullWeight template changeRecipient) sharing with
        ⟨short, same⟩ | ⟨_, _, same⟩ | ⟨covers, _, unpaid, same⟩ |
          ⟨_, _, _, same⟩ | ⟨_, other, same, shares⟩
      · cases same
        cases found
        exact .inl ⟨rfl, short⟩
      · cases same
      · cases same
        cases found
        exact .inr ⟨rfl, covers, unpaid⟩
      · cases same
      · cases same
        cases shares with
        | underDust _ _ => cases found
        | createDust _ _ _ => cases found
        | settled _ =>
            rw [settled_error] at found
            cases found

theorem checkMissingChange_error
    {inputs : List Coin}
    {outputs : List R}
    {fees : Fees}
    {dustThreshold : Nat}
    (stopped :
      checkMissingChange inputs outputs fees dustThreshold = .error stop) :
    (∃ cause, stop = .panic cause) ∨
      ∃ excess, stop = .err (.missingChange excess) := by
  unfold checkMissingChange at stopped
  split at stopped
  · cases stopped
  rcases bind_eq_error.mp stopped with failed | ⟨sumInputs, _, stopped⟩
  · rw [sumU64_eq] at failed
    exact .inl (fitU64_error failed)
  rcases bind_eq_error.mp stopped with failed | ⟨sumOutputs, _, stopped⟩
  · rw [sumOutputAmounts_eq] at failed
    exact .inl (fitU64_error failed)
  by_cases small : sumInputs - sumOutputs ≤ dustThreshold
  · simp only [small, if_true] at stopped
    cases stopped
  simp only [small, if_false] at stopped
  have refuses :
      ∀ {estimated : Nat},
        (if sumInputs - sumOutputs - estimated > dustThreshold then
            throw (.err (.missingChange
              (sumInputs - sumOutputs - estimated)))
          else
            pure () : Outcome Unit) = .error stop →
          ∃ excess, stop = .err (.missingChange excess) := by
    intro estimated refused
    split at refused <;> cases refused
    exact ⟨_, rfl⟩
  cases fees with
  | sats fee =>
      right
      exact refuses stopped
  | milliSatsVb rate =>
      rcases bind_eq_error.mp stopped with failed | ⟨_, _, stopped⟩
      · rw [txEstimatedWeight_eq] at failed
        exact .inl (fitU64_error failed)
      rcases bind_eq_error.mp stopped with failed | ⟨_, _, stopped⟩
      · exact .inl (rateFee_error failed)
      · exact .inr (refuses stopped)

theorem finalize_not_lacking
    {miniscript : Miniscript}
    {change : Option R}
    {shuffle : Shuffle Coin × Shuffle R}
    {spProvider : Option (SpPartialSecretProvider R)}
    {network : Network}
    {maxFeePercent maxFeeAmount : Nat}
    (lacks : LackOfFees error) :
    template.finalize miniscript change (some shuffle) spProvider network
        maxFeePercent maxFeeAmount false ≠
      .error (.err error) := by
  intro stopped
  rcases bind_eq_error.mp stopped with failed | ⟨outputs, prepared, _⟩
  · cases change with
    | none => cases failed
    | some recipient =>
        rcases prepareOutputs_some template recipient with
          ⟨_, refused⟩ | ⟨_, refused⟩ | ⟨_, _, accepted⟩
        · rw [refused] at failed
          cases failed
          cases lacks
        · rw [refused] at failed
          cases failed
          cases lacks
        · rw [accepted] at failed
          cases failed
  rw [finalize_of_prepared prepared] at stopped
  rcases bind_eq_error.mp stopped with failed | ⟨_, _, stopped⟩
  · rcases checkMissingChange_error failed with
      ⟨_, same⟩ | ⟨_, same⟩
    · cases same
    · cases same
      cases lacks
  rcases bind_eq_error.mp stopped with failed | ⟨_, _, stopped⟩
  · by_cases overflowed :
        checkDisproportionateFee (shuffle.1.apply template.inputs)
            (shuffle.2.apply outputs) maxFeePercent maxFeeAmount =
          .error (.panic .overflow)
    · rw [overflowed] at failed
      cases failed
    · have fits := checkDisproportionateFee_fits overflowed
      rw [checkDisproportionateFee_of_fits fits] at failed
      split at failed <;> cases failed
      cases lacks
  · rcases assemble_error stopped with
      ⟨_, same⟩ | same | same | same
    · cases same
    · cases same
      cases lacks
    · cases same
      cases lacks
    · cases same
      cases lacks

end Settling

theorem foldl_addInput
    (coins : List Coin)
    (builder : TxBuilder (BoxedRecipient P)) :
    ∃ inputs,
      coins.foldl TxBuilder.addInput builder =
          { builder with
            txTemplate := { builder.txTemplate with inputs := inputs } } ∧
        (coins ≠ [] ∨ builder.txTemplate.inputs ≠ [] → inputs ≠ []) := by
  induction coins generalizing builder with
  | nil =>
      refine ⟨builder.txTemplate.inputs, rfl, ?_⟩
      rintro (impossible | some)
      · exact absurd rfl impossible
      · exact some
  | cons coin rest ih =>
      obtain ⟨inputs, same, some⟩ := ih (builder.addInput coin)
      by_cases spent : builder.txTemplate.inputs.contains coin = true
      · have unmoved : builder.addInput coin = builder := if_pos spent
        rw [unmoved] at same some
        refine ⟨inputs, by rw [List.foldl_cons, unmoved, same], ?_⟩
        intro _
        apply some
        right
        intro nothing
        rw [nothing] at spent
        simp at spent
      · have added :
            builder.addInput coin =
              { builder with
                txTemplate :=
                  { builder.txTemplate with
                    inputs := builder.txTemplate.inputs ++ [coin] } } :=
          if_neg spent
        rw [added] at same some
        refine ⟨inputs, by rw [List.foldl_cons, added, same], ?_⟩
        intro _
        exact some (.inr (by simp))

/-- What `pay` makes ready: a new template that pays one recipient. -/
structure ReadyToPay
    (builder ready : TxBuilder (BoxedRecipient P))
    (amount : Nat)
    (address : Address) : Prop where
  fees : ready.txTemplate.fees = .milliSatsVb 1000
  outputs :
    ready.txTemplate.outputs =
      [.recipient ⟨address, .value amount, none, none, none⟩]
  inputs : ready.txTemplate.inputs ≠ []
  changeProvider : ready.changeProvider = builder.changeProvider

variable {builder : TxBuilder (BoxedRecipient P)} {amount : Nat}
variable {address : Address} {feerate : Nat}

theorem payInputs_error
    {amount feerate : Nat}
    {stop : Stop}
    (stopped :
      builder.payInputs (.value amount) feerate = .error stop) :
    ∃ cause, stop = .panic cause := by
  unfold TxBuilder.payInputs at stopped
  rcases bind_eq_error.mp stopped with failed | ⟨_, _, stopped⟩
  · rw [txEstimatedWeight_eq] at failed
    exact fitU64_error failed
  rcases bind_eq_error.mp stopped with failed | ⟨_, _, stopped⟩
  · exact rateFee_error failed
  split at stopped
  · cases stopped
  rcases bind_eq_error.mp stopped with failed | ⟨_, _, stopped⟩
  · exact fitU64_error failed
  unfold TxBuilder.selectCoins at stopped
  split at stopped
  · unfold CoinSelector.select at stopped
    split at stopped
    · cases stopped
    · cases stopped
      exact ⟨_, rfl⟩
  · cases stopped

/-- The coins to pay an amount with are there exactly when economical coins
leave the target. -/
theorem payInputs_ok
    (default :
      builder.coinSelector = DefaultCoinSelector.default.strategy)
    (unfunded : builder.txTemplate.inputs = [])
    {amount feerate : Nat}
    (outputs :
      builder.txTemplate.outputs =
        [.recipient ⟨address, .value amount, none, none, none⟩])
    {coins : List Coin}
    (ran : builder.payInputs (.value amount) feerate = .ok coins) :
    coins ≠ [] ↔
      Reachable (builder.coinSource.getD [])
        (payTarget amount address feerate) feerate := by
  unfold TxBuilder.payInputs at ran
  rw [txEstimatedWeight_eq, unfunded, outputs] at ran
  obtain ⟨weight, weighed, rest⟩ := bind_eq_ok.mp ran
  obtain ⟨_, rfl⟩ := fitU64_eq_ok.mp weighed
  obtain ⟨baseFee, rated, ran⟩ := bind_eq_ok.mp rest
  have fee := rateFee_ok rated
  simp only [List.isEmpty_nil, not_true_eq_false, if_false] at ran
  obtain ⟨target, added, ran⟩ := bind_eq_ok.mp ran
  obtain ⟨_, rfl⟩ := addU64_eq_ok.mp added
  have sameTarget : amount + baseFee = payTarget amount address feerate := by
    rw [fee]
    rfl
  rw [sameTarget] at ran
  unfold TxBuilder.selectCoins at ran
  cases source : builder.coinSource with
  | none =>
      rw [source] at ran
      cases ran
      constructor
      · intro impossible
        exact absurd rfl impossible
      · rintro ⟨_, subset, sub, some, _⟩
        exact absurd (List.eq_nil_of_sublist_nil sub) some
  | some spendable =>
      rw [source] at ran
      simp only [default, CoinSelector.select] at ran
      split at ran
      · rename_i selected chosen
        cases ran
        apply DefaultCoinSelector.selectCoins_nonempty_iff
        · unfold DefaultCoinSelector.strategy at chosen
          cases outcome :
              DefaultCoinSelector.default.selectCoins spendable
                (payTarget amount address feerate) feerate with
          | error stop =>
              rw [outcome] at chosen
              cases chosen
          | ok found =>
              rw [outcome] at chosen
              cases chosen
              exact outcome
      · cases ran

/-- Unless it panics, `pay` gets ready exactly when economical coins leave the
target. -/
theorem readyToPay_cases
    (default :
      builder.coinSelector = DefaultCoinSelector.default.strategy)
    (returns :
      ∀ cause,
        builder.newTemplate.readyToPay (.value amount) address feerate none ≠
          .error (.panic cause)) :
    (¬ Reachable (builder.coinSource.getD [])
        (payTarget amount address feerate) feerate ∧
      builder.newTemplate.readyToPay (.value amount) address feerate none =
        .error (.err .coinSelection)) ∨
    (Reachable (builder.coinSource.getD [])
        (payTarget amount address feerate) feerate ∧
      ∃ ready,
        builder.newTemplate.readyToPay (.value amount) address feerate none =
            .ok ready ∧
          ReadyToPay builder ready amount address) := by
  unfold TxBuilder.readyToPay at returns ⊢
  cases outcome :
      (builder.newTemplate.addOutput
        ⟨address, .value amount, none, none, none⟩).payInputs
          (.value amount) feerate with
  | error stop =>
      obtain ⟨cause, same⟩ := payInputs_error outcome
      have panicked := returns cause
      simp only [outcome, same, error_bind] at panicked
      exact absurd rfl panicked
  | ok coins =>
      have picks :
          (builder.newTemplate.addOutput
            ⟨address, .value amount, none, none, none⟩).coinSelector =
            DefaultCoinSelector.default.strategy :=
        default
      have found := payInputs_ok picks rfl rfl outcome
      simp only [outcome, ok_bind]
      cases coins with
      | nil =>
          left
          refine ⟨?_, rfl⟩
          intro reachable
          exact found.mpr reachable rfl
      | cons coin rest =>
          right
          refine ⟨found.mp (List.cons_ne_nil coin rest), _, rfl, ?_⟩
          obtain ⟨inputs, same, some⟩ :=
            foldl_addInput (coin :: rest)
              (builder.newTemplate.addOutput
                ⟨address, .value amount, none, none, none⟩)
          rw [same]
          exact ⟨rfl, rfl, some (.inl (List.cons_ne_nil coin rest)), rfl⟩

theorem ReadyToPay.simulate_eq
    {builder ready : TxBuilder (BoxedRecipient P)}
    (pays : ReadyToPay builder ready amount address) :
    (ready.simulate =
        settleFees ready.fundedTemplate amount none
          (some ready.changeProvider) ∨
      ready.simulate = .error (.panic .overflow)) ∧
      valueTotal ready.txTemplate.outputs = amount := by
  have fixed :
      ∀ output ∈ ready.txTemplate.outputs, isMax output = false := by
    intro output member
    rw [pays.outputs, List.mem_singleton] at member
    rw [member]
    rfl
  have total : valueTotal ready.txTemplate.outputs = amount := by
    rw [pays.outputs, valueTotal_cons]
    rfl
  have spends : ready.txTemplate.inputs.isEmpty = false := by
    cases inputs : ready.txTemplate.inputs with
    | nil => exact absurd inputs pays.inputs
    | cons coin rest => rfl
  have funds :
      ∀ maxed,
        fundInputs ready.txTemplate amount maxed ready.selection =
          .ok ready.txTemplate.inputs := by
    intro maxed
    simp only [fundInputs, spends, Bool.false_eq_true, if_false]
    rfl
  have funding : ready.funding = ready.txTemplate.inputs := by
    rw [TxBuilder.funding, total, funds]
  have paying : ready.txTemplate.fees.isNull = false := by
    rw [pays.fees]
    rfl
  refine ⟨?_, total⟩
  by_cases fits : amount ≤ u64Max
  · left
    have scan :=
      outputsTotal_of_maxed (total.symm ▸ fits) (Maxed.free fixed)
    rw [total] at scan
    unfold TxBuilder.simulate processTransaction
    simp only [paying, Bool.false_eq_true, if_false,
      attempt_eq_ok.mpr scan, ok_bind, attempt_eq_ok.mpr (funds none)]
    rw [TxBuilder.fundedTemplate, funding]
    rfl
  · right
    have scan :
        outputsTotal ready.txTemplate.outputs 0 0 none =
          .error (.panic .overflow) := by
      have overflowed :
          (addU64 0 amount : Outcome Nat) = .error (.panic .overflow) := by
        rw [addU64, Nat.zero_add]
        exact fitU64_of_gt (not_le.mp fits)
      rw [pays.outputs]
      show (addU64 0 amount >>= fun total => _) = _
      rw [overflowed, error_bind]
    unfold TxBuilder.simulate processTransaction
    simp only [paying, Bool.false_eq_true, if_false, scan]
    rfl

/-- Unless it panics, concluding what `pay` makes ready lacks fees exactly
when the coins do not cover the template's fee, or that fee does not cover the
unsigned size at the rate. -/
theorem ReadyToPay.conclude_iff
    [LawfulRecipient P]
    {builder ready : TxBuilder (BoxedRecipient P)}
    (pays : ReadyToPay builder ready amount address)
    {crate : TxCrate}
    {miniscript : Miniscript}
    {shuffle : Shuffle Coin × Shuffle (BoxedRecipient P)}
    (returns :
      ∀ cause,
        ready.conclude crate miniscript shuffle feerate ≠
          .error (.panic cause)) :
    (∀ error, LackOfFees error →
        ready.conclude crate miniscript shuffle feerate ≠
          .error (.err error)) ↔
      ¬ (amount ≤ coinTotal ready.funding ∧
          coinTotal ready.funding <
            amount + ready.fundedTemplate.feeWoChange) ∧
        ∀ psbt, ready.generate miniscript shuffle = .ok psbt →
          (Fees.milliSatsVb feerate).of (crate.weight psbt.unsignedTx) ≤
            settledFee ready.fundedTemplate ready.changeProvider := by
  obtain ⟨simulates, total⟩ := pays.simulate_eq
  rcases simulates with settles | panicked
  · cases simulated : ready.simulate with
    | error stop =>
        rw [settles] at simulated
        obtain ⟨cause, rfl⟩ := settleFees_error simulated
        rw [← settles] at simulated
        have stopped := returns cause
        rw [TxBuilder.conclude, simulated, error_bind] at stopped
        exact absurd rfl stopped
    | ok result =>
        cases clean : result.error with
        | some error =>
            -- the inputs do not cover the outputs or the template's fee
            have generated :
                ready.generate miniscript shuffle = .error (.err error) := by
              unfold TxBuilder.simulate at simulated
              rw [TxBuilder.generate, simulated, ok_bind, clean]
              rfl
            have concluded :
                ready.conclude crate miniscript shuffle feerate =
                  .error (.err error) := by
              rw [TxBuilder.conclude, simulated, ok_bind, generated,
                error_bind]
            rw [settles] at simulated
            rw [concluded, generated]
            rcases settleFees_failed simulated clean with
              ⟨rfl, short⟩ | ⟨rfl, covers, unpaid⟩
            · constructor
              · intro _
                refine ⟨?_, fun psbt impossible => by cases impossible⟩
                rintro ⟨covers, _⟩
                exact absurd short (not_lt.mpr covers)
              · intro _ error lacks same
                cases same
                cases lacks
            · constructor
              · intro never
                exact absurd rfl (never _ .notEnoughForFee)
              · rintro ⟨paid, _⟩
                exact absurd ⟨covers, unpaid⟩ paid
        | none =>
            have settled := (TxBuilder.simulated simulated clean).settled
            have generated :=
              TxBuilder.generate_of_simulated simulated clean miniscript
                shuffle
            have reported := settled.reports.1
            have paid :
                amount + ready.fundedTemplate.feeWoChange ≤
                  coinTotal ready.funding := by
              have sameTotal :
                  valueTotal ready.fundedTemplate.outputs = amount :=
                total
              have lighter :=
                feeWoChange_le ready.fundedTemplate
                  (some ready.changeProvider)
              have spends :
                  ready.fundedTemplate.inputs = ready.funding := rfl
              cases settled with
              | changed _ worth =>
                  rw [sameTotal, spends] at worth
                  omega
              | dropped _ covers _ _ _ =>
                  rw [sameTotal, spends] at covers
                  exact covers
              | maxed _ _ _ _ _ _ _ worth =>
                  rw [sameTotal, spends] at worth
                  omega
            have unlike :
                ¬ (amount ≤ coinTotal ready.funding ∧
                  coinTotal ready.funding <
                    amount + ready.fundedTemplate.feeWoChange) := by
              rintro ⟨_, unpaid⟩
              exact absurd paid (not_le.mpr unpaid)
            cases built : ready.generate miniscript shuffle with
            | error stop =>
                have concluded :
                    ready.conclude crate miniscript shuffle feerate =
                      .error stop := by
                  rw [TxBuilder.conclude, simulated, ok_bind, built,
                    error_bind]
                rw [concluded]
                constructor
                · intro _
                  exact ⟨unlike, fun psbt impossible => by cases impossible⟩
                · intro _ error lacks same
                  cases same
                  rw [built] at generated
                  exact finalize_not_lacking lacks generated.symm
            | ok psbt =>
                have rated :
                    ready.conclude crate miniscript shuffle feerate = (do
                      let minFee ←
                        rateFee (crate.weight psbt.unsignedTx) feerate
                      if
                        minFee >
                          settledFee ready.fundedTemplate
                            ready.changeProvider
                      then
                        throw (.err .coinSelectionFee)
                      else
                        return psbt) := by
                  rw [TxBuilder.conclude, simulated, ok_bind, built, ok_bind,
                    reported]
                cases fee :
                    rateFee (crate.weight psbt.unsignedTx) feerate with
                | error stop =>
                    obtain ⟨cause, rfl⟩ := rateFee_error fee
                    have stopped := returns cause
                    rw [rated, fee, error_bind] at stopped
                    exact absurd rfl stopped
                | ok minFee =>
                    have exact := rateFee_ok fee
                    rw [rated, fee, ok_bind]
                    by_cases short :
                        minFee >
                          settledFee ready.fundedTemplate
                            ready.changeProvider
                    · rw [if_pos short]
                      constructor
                      · intro never
                        exact absurd rfl (never _ .coinSelectionFee)
                      · rintro ⟨_, covers⟩
                        have enough := covers psbt rfl
                        rw [exact] at short
                        exact absurd enough (not_le.mpr short)
                    · rw [if_neg short]
                      constructor
                      · intro _
                        refine ⟨unlike, ?_⟩
                        intro other same
                        cases same
                        rw [exact] at short
                        exact not_lt.mp short
                      · intro _ error _ impossible
                        cases impossible
  · have stopped := returns .overflow
    rw [TxBuilder.conclude, panicked, error_bind] at stopped
    exact absurd rfl stopped

end Rate

namespace TxSample

/-- Unsigned transactions with taproot scripts only. -/
def crate : TxCrate where
  computeTxid tx := tx.lockTime
  weight tx := 4 * (10 + 41 * tx.input.length + 43 * tx.output.length)

/-- A new builder with one coin of 100 000 satoshis to spend. -/
def purse : TxBuilder Boxed :=
  { builder (template [] [] (.milliSatsVb 1000)) with
    coinSource := some [coin 0 100000]
    coinSelector := DefaultCoinSelector.default.strategy }

def shop : Address :=
  ⟨7, 34⟩

end TxSample

end Bwk.Tx
