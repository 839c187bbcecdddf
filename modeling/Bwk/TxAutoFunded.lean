import Bwk.TxSelectionSound
import Bwk.TxPay

namespace Bwk.Tx

open RecipientProvider

/-!
# When selected inputs cover the fee

The selector charges the base transaction and every input apart, each rounded
up to virtual bytes and down to satoshis, and the fee of the whole is rounded
once.  What the roundings lose has to be in what the selected coins leave above
the target; at a whole number of satoshis a virtual byte they lose nothing.
-/

@[simp]
theorem coinTotal_cons
    (coin : Coin)
    (coins : List Coin) :
    coinTotal (coin :: coins) = coin.value + coinTotal coins := by
  simp [coinTotal]

theorem coinTotal_eq_leftBy_add
    {feerate : Nat}
    {coins : List Coin}
    (worth : ∀ coin ∈ coins, economical feerate coin = true) :
    coinTotal coins = leftBy feerate coins + feesOf feerate coins := by
  induction coins with
  | nil => rfl
  | cons coin rest inductionHypothesis =>
      have here := worth coin List.mem_cons_self
      have later :=
        inductionHypothesis fun other member =>
          worth other (List.mem_cons_of_mem _ member)
      rw [economical, decide_eq_true_eq] at here
      rw [coinTotal_cons, leftBy_cons, feesOf_cons, later, leavesOf]
      omega

def inputVbytes (coins : List Coin) : Nat :=
  (coins.map fun coin =>
    vbytesCeil (perInputFixedWu + coin.satisfactionSize)).sum

theorem vbytesCeil_add_le (left right : Nat) :
    vbytesCeil (left + right) ≤ vbytesCeil left + vbytesCeil right := by
  unfold vbytesCeil
  omega

section Outputs

variable {R : Type} [RecipientProvider R]

variable {coins : List Coin}

theorem weightOf_of_few
    (few : coins.length < 253)
    (outputs : List R) :
    weightOf coins outputs =
      weightOf [] outputs +
        (coins.map fun coin =>
          perInputFixedWu + coin.satisfactionSize).sum := by
  have inputs :
      ((coins.map Coin.satisfactionSize).map (164 + ·)).sum =
        (coins.map fun coin =>
          perInputFixedWu + coin.satisfactionSize).sum := by
    rw [List.map_map]
    rfl
  rw [weightOf, weightOf, rawWeight, rawWeight, inputs,
    if_neg (by rw [List.length_map]; omega)]
  simp only [List.map_nil, List.sum_nil, List.length_nil,
    if_neg (show ¬ 253 ≤ 0 by decide)]
  omega

theorem vbytesCeil_weightOf_le
    (few : coins.length < 253)
    (outputs : List R) :
    vbytesCeil (weightOf coins outputs) ≤
      vbytesCeil (weightOf [] outputs) + inputVbytes coins := by
  rw [weightOf_of_few few]
  clear few
  generalize weightOf [] outputs = base
  induction coins generalizing base with
  | nil => rfl
  | cons coin rest inductionHypothesis =>
      have here :=
        vbytesCeil_add_le base (perInputFixedWu + coin.satisfactionSize)
      have later :=
        inductionHypothesis (base + (perInputFixedWu + coin.satisfactionSize))
      rw [inputVbytes, List.map_cons, List.sum_cons, List.map_cons,
        List.sum_cons]
      rw [inputVbytes, Nat.add_assoc] at later
      omega

theorem feesOf_whole (rate : Nat) (coins : List Coin) :
    feesOf (1000 * rate) coins = inputVbytes coins * rate := by
  induction coins with
  | nil => simp [feesOf, inputVbytes]
  | cons coin rest inductionHypothesis =>
      rw [feesOf_cons, inductionHypothesis, feeOf, inputVbytes, inputVbytes,
        List.map_cons, List.sum_cons, Nat.add_mul, Nat.mul_left_comm,
        Nat.mul_div_cancel_left _ (by decide)]

/-- What the fee of the whole exceeds the fees of the base transaction and of
the inputs by. -/
def roundingLoss
    (feerate : Nat)
    (outputs : List R)
    (coins : List Coin) : Nat :=
  (Fees.milliSatsVb feerate).of (weightOf coins outputs) -
    ((Fees.milliSatsVb feerate).of (weightOf [] outputs) +
      feesOf feerate coins)

/-- What coins leave above the outputs and the fee of the base transaction. -/
def surplus
    (feerate : Nat)
    (outputs : List R)
    (coins : List Coin) : Nat :=
  leftBy feerate coins -
    (valueTotal outputs +
      (Fees.milliSatsVb feerate).of (weightOf [] outputs))

theorem roundingLoss_of_whole
    {feerate : Nat}
    (whole : 1000 ∣ feerate)
    (few : coins.length < 253)
    (outputs : List R) :
    roundingLoss feerate outputs coins = 0 := by
  obtain ⟨rate, rfl⟩ := whole
  have exact (weight : Nat) :
      (Fees.milliSatsVb (1000 * rate)).of weight = vbytesCeil weight * rate := by
    rw [Fees.of, Nat.mul_left_comm, Nat.mul_div_cancel_left _ (by decide)]
  have bytes :=
    Nat.mul_le_mul_right rate (vbytesCeil_weightOf_le few outputs)
  rw [roundingLoss, exact, exact, feesOf_whole, ← Nat.add_mul]
  exact Nat.sub_eq_zero_of_le bytes

end Outputs

namespace DefaultCoinSelector

variable {selector : DefaultCoinSelector}

/-- What is returned is some of the economical coins, at most twenty, and leaves
the target. -/
theorem selectCoins_ok
    {candidates coins : List Coin}
    {target feerate : Nat}
    (distinct : (candidates.map Coin.outpoint).Nodup)
    (ran : selector.selectCoins candidates target feerate = .ok coins)
    (some : coins ≠ []) :
    coins.Sublist (candidates.filter (economical feerate)) ∧
      coins.length ≤ 20 ∧ target ≤ leftBy feerate coins := by
  have given : candidates ≠ [] := by
    rintro rfl
    cases ran
    exact some rfl
  have again := ran
  rw [selectCoins, if_neg (by simpa using given)] at again
  obtain ⟨chosen, selected, taken⟩ := bind_eq_ok.mp again
  cases chosen with
  | none =>
      cases taken
      exact absurd rfl some
  | some selection =>
      obtain ⟨combinations, combined, chose⟩ := bind_eq_ok.mp selected
      cases combinations with
      | none => cases chose
      | some selections =>
          have few := (allCoinsCombinations_ok combined).1
          have positive := some_economical combined
          obtain ⟨_, same⟩ :=
            (allCoinsCombinations_eq_ok positive few).mp combined
          cases same
          obtain ⟨amount, above, looked⟩ :=
            mem_selectionsFrom.mp ((choose_ok chose).1 _ rfl)
          obtain ⟨subset, listed, rfl, rfl⟩ := selectionOf_of_getElem? looked
          obtain ⟨sub, _⟩ := mem_nonemptySubsets.mp listed
          rw [selectCoins_of_select selector distinct given
            (sub.trans List.filter_sublist) selected] at ran
          cases ran
          exact ⟨sub, sub.length_le.trans few, above⟩

end DefaultCoinSelector

section Funding

variable {R : Type} [RecipientProvider R]

variable {template : TxTemplate R} {total : Nat} {maxed : Option Nat}
variable {changeRecipient : Option R}

/-- The coins picked for a template without inputs and without a maxed output
are economical, few, and leave the outputs and the fee of the base
transaction. -/
theorem selectInputs_ok
    {selector : DefaultCoinSelector}
    {total rate : Nat}
    {spendable coins : List Coin}
    (noInputs : template.inputs = [])
    (rated : template.fees = .milliSatsVb rate)
    (distinct : (spendable.map Coin.outpoint).Nodup)
    (selected :
      selectInputs template total none
          (some ⟨selector.strategy, spendable⟩) =
        .ok coins) :
    coins.Sublist (spendable.filter (economical rate)) ∧
      coins.length ≤ 20 ∧
      total +
          (Fees.milliSatsVb rate).of (weightOf [] template.outputs) ≤
        leftBy rate coins := by
  obtain ⟨picked, ran, kept⟩ := bind_eq_ok.mp selected
  simp only [pickInputs, Option.isSome_none, Bool.false_eq_true, if_false,
    rated] at ran
  obtain ⟨weight, weighed, ran⟩ := bind_eq_ok.mp ran
  obtain ⟨baseFee, charged, ran⟩ := bind_eq_ok.mp ran
  obtain ⟨target, added, ran⟩ := bind_eq_ok.mp ran
  rw [txEstimatedWeight_eq, noInputs] at weighed
  obtain ⟨_, rfl⟩ := fitU64_eq_ok.mp weighed
  obtain ⟨_, rfl⟩ := addU64_eq_ok.mp added
  have charged := rateFee_ok charged
  subst charged
  cases empty : picked.isEmpty with
  | true =>
      rw [empty] at kept
      cases kept
  | false =>
      rw [empty] at kept
      cases kept
      have some : coins ≠ [] := by
        intro nothing
        rw [nothing] at empty
        cases empty
      have returned :
          selector.selectCoins spendable
              (total + vbytesCeil (weightOf [] template.outputs) * rate / 1000)
              rate =
            .ok coins := by
        unfold CoinSelector.select DefaultCoinSelector.strategy at ran
        cases found :
            selector.selectCoins spendable
              (total + vbytesCeil (weightOf [] template.outputs) * rate / 1000)
              rate with
        | ok taken =>
            simp only [found, Except.toOption] at ran
            cases ran
            rfl
        | error stop =>
            simp only [found, Except.toOption] at ran
            cases ran
      exact DefaultCoinSelector.selectCoins_ok distinct returned some

/-- Settling that lacks the fee had its sums, weights and fees in range. -/
theorem settleFees_notEnough_sized
    {result : TransactionResult R}
    (ran : settleFees template total maxed changeRecipient = .ok result)
    (failed : result.error = some .notEnoughForFee) :
    Sized template changeRecipient := by
  simp only [settleFees, bind_eq_ok, sumU64_eq_ok, txEstimatedWeight_eq,
    fitU64_eq_ok] at ran
  obtain ⟨_, ⟨inputsFit, rfl⟩, _, ⟨lighterFits, rfl⟩, heavier, weighed,
    shared, sharing, settled⟩ := ran
  rw [weightWithChange_eq template changeRecipient rfl lighterFits,
    fitU64_eq_ok] at weighed
  obtain ⟨weightFits, rfl⟩ := weighed
  refine ⟨inputsFit, weightFits, ?_⟩
  rcases processFees_cases
      (weightOf_le_fullWeight template changeRecipient) sharing with
    ⟨_, same⟩ | ⟨_, _, same⟩ | ⟨_, fits, _⟩ | ⟨fits, _⟩ | ⟨fits, _⟩
  · cases same
    simp only [FeeResult.failed] at settled
    cases settled
    cases failed
  · cases same
  · exact fits
  · exact fits
  · exact fits

theorem settleFees_of_short
    (sized : Sized template changeRecipient)
    (covers : total ≤ coinTotal template.inputs)
    (short : coinTotal template.inputs < total + template.feeWoChange) :
    settleFees template total maxed changeRecipient =
      .ok (.failed template .notEnoughForFee) := by
  have unpaid :=
    @processFees_unpaid template.fees
      (weightOf template.inputs template.outputs)
      (fullWeight template changeRecipient) (coinTotal template.inputs)
      total (drainOf maxed) template.dustThreshold
      (weightOf_le_fullWeight template changeRecipient) sized.feeFits covers
      short
  rw [settleFees_of_sized sized, unpaid, ok_bind]
  rfl

/-- Processing a template never says that its inputs do not cover the outputs or
the fee. -/
def NeverShort
    (template : TxTemplate R)
    (changeRecipient : Option R)
    (selection : Option CoinSelection) : Prop :=
  ∀ result,
    processTransaction template changeRecipient selection = .ok result →
      result.error ≠ some .addInput ∧
        result.error ≠ some .notEnoughForFee

theorem processTransaction_selected
    {selection : CoinSelection}
    {coins : List Coin}
    (noInputs : template.inputs = [])
    (paying : template.fees.isNull = false)
    (summed :
      outputsTotal template.outputs 0 0 none = .ok (total, none))
    (selected :
      selectInputs template total none (some selection) = .ok coins)
    (changeRecipient : Option R) :
    processTransaction template changeRecipient (some selection) =
      settleFees { template with inputs := coins } total none
        changeRecipient := by
  have funded : fundInputs template total none (some selection) = .ok coins := by
    rw [fundInputs, noInputs]
    exact selected
  rw [processTransaction, if_neg (by simp [paying]), summed]
  simp only [attempt, ok_bind, funded]

/-- Selected inputs cover the fee exactly when what the roundings lose is in
what the coins leave above the target, unless the arithmetic overflows; at a
whole rate nothing is lost. -/
theorem selected_cover_fee_iff
    (selector : DefaultCoinSelector)
    (template : TxTemplate R)
    (changeRecipient : Option R)
    (spendable coins : List Coin)
    (total rate : Nat)
    (noInputs : template.inputs = [])
    (rated : template.fees = .milliSatsVb rate)
    (distinct : (spendable.map Coin.outpoint).Nodup)
    (summed :
      outputsTotal template.outputs 0 0 none = .ok (total, none))
    (selected :
      selectInputs template total none
          (some ⟨selector.strategy, spendable⟩) =
        .ok coins) :
    (NeverShort template changeRecipient
        (some ⟨selector.strategy, spendable⟩) ↔
      (Sized { template with inputs := coins } changeRecipient →
        roundingLoss rate template.outputs coins ≤
          surplus rate template.outputs coins)) ∧
      (1000 ∣ rate → roundingLoss rate template.outputs coins = 0) := by
  obtain ⟨sub, few, above⟩ := selectInputs_ok noInputs rated distinct selected
  obtain ⟨same, _, _⟩ := outputsTotal_ok summed
  have worth : ∀ coin ∈ coins, economical rate coin = true :=
    fun coin member => (List.mem_filter.mp (sub.subset member)).2
  have value := coinTotal_eq_leftBy_add worth
  have fee :
      TxTemplate.feeWoChange { template with inputs := coins } =
        (Fees.milliSatsVb rate).of (weightOf coins template.outputs) := by
    rw [TxTemplate.feeWoChange, rated]
  refine ⟨⟨?_, ?_⟩, fun whole => roundingLoss_of_whole whole (by omega) _⟩
  · intro never sized
    by_contra lost
    rw [roundingLoss, surplus, ← same] at lost
    have short :
        coinTotal coins <
          total +
            (Fees.milliSatsVb rate).of (weightOf coins template.outputs) := by
      omega
    have paying : template.fees.isNull = false := by
      by_contra null
      rw [rated, Bool.not_eq_false, Fees.isNull, beq_iff_eq] at null
      subst null
      simp [Fees.of] at lost
    have settled :
        settleFees { template with inputs := coins } total none
            changeRecipient =
          .ok (.failed { template with inputs := coins } .notEnoughForFee) :=
      settleFees_of_short sized (show total ≤ coinTotal coins by omega)
        (show coinTotal coins < total + _ by rw [fee]; exact short)
    rw [← processTransaction_selected noInputs paying summed selected]
      at settled
    exact (never _ settled).2 rfl
  · intro covered result ran
    cases null : template.fees.isNull with
    | true =>
        rw [processTransaction, if_pos null] at ran
        cases ran
        exact ⟨by simp [TransactionResult.failed],
          by simp [TransactionResult.failed]⟩
    | false =>
        rw [processTransaction_selected noInputs null summed selected] at ran
        constructor
        · intro failed
          rcases settleFees_failed ran failed with
            ⟨_, short⟩ | ⟨impossible, _⟩
          · have : coinTotal coins < total := short
            omega
          · cases impossible
        · intro failed
          rcases settleFees_failed ran failed with
            ⟨impossible, _⟩ | ⟨_, _, short⟩
          · cases impossible
          · have inside := covered (settleFees_notEnough_sized ran failed)
            rw [roundingLoss, surplus, ← same] at inside
            rw [fee] at short
            have : coinTotal coins < total + _ := short
            omega

end Funding

namespace TxSample

def keyHashCoin (index value : Nat) : Coin :=
  { coin index value with satisfactionSize := 108 }

end TxSample

open TxSample

/-- At two satoshis a virtual byte the coin that just reaches the target covers
the fee. -/
theorem selected_cover_fee_two_satoshis :
    NeverShort (template [] [.value 10000] (.milliSatsVb 2000))
      (some (.provider changeProvider : Boxed))
      (some ⟨DefaultCoinSelector.default.strategy,
        [keyHashCoin 1 10244]⟩) :=
  (selected_cover_fee_iff .default
      (template [] [.value 10000] (.milliSatsVb 2000))
      (some (.provider changeProvider : Boxed)) [keyHashCoin 1 10244]
      [keyHashCoin 1 10244] 10000 2000 rfl rfl (by decide) (by decide)
      (by decide)).1.mpr
    (fun _ => by decide)

/-- At 1.7 satoshis a virtual byte the selected coin leaves the target and lacks
one satoshi of the fee. -/
theorem rounded_coin_lacks_fee :
    let template : TxTemplate Boxed :=
      template [] [.value 10000] (.milliSatsVb 1700)
    let selection : CoinSelection :=
      ⟨DefaultCoinSelector.default.strategy, [keyHashCoin 1 10206]⟩
    outputsTotal template.outputs 0 0 none = .ok (10000, none) ∧
      selectInputs template 10000 none (some selection) =
        .ok [keyHashCoin 1 10206] ∧
      DefaultCoinSelector.default.selectCoins [keyHashCoin 1 10206] 10091
          1700 =
        .ok [keyHashCoin 1 10206] ∧
      (∃ result,
        processTransaction template (some (.provider changeProvider))
            (some selection) = .ok result ∧
          result.error = some .notEnoughForFee) ∧
      ¬ NeverShort template (some (.provider changeProvider))
        (some selection) := by
  have short :
      (processTransaction
          (template [] [.value 10000] (.milliSatsVb 1700) : TxTemplate Boxed)
          (some (.provider changeProvider))
          (some ⟨DefaultCoinSelector.default.strategy,
            [keyHashCoin 1 10206]⟩)).map TransactionResult.error =
        .ok (some .notEnoughForFee) := by
    decide
  cases ran :
      processTransaction
        (template [] [.value 10000] (.milliSatsVb 1700) : TxTemplate Boxed)
        (some (.provider changeProvider))
        (some ⟨DefaultCoinSelector.default.strategy,
          [keyHashCoin 1 10206]⟩) with
  | error stop =>
      rw [ran] at short
      cases short
  | ok result =>
      rw [ran] at short
      have failed : result.error = some .notEnoughForFee := by
        simpa [Except.map] using short
      exact
        ⟨by decide, by decide, by decide, ⟨result, ran, failed⟩,
          fun never => (never result ran).2 failed⟩

end Bwk.Tx
