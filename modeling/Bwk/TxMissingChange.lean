import Bwk.TxSettled

namespace Bwk.Tx

open RecipientProvider

/-!
# Change that is given up and then missed

A simulation gives up a change output that would be dust once paid for, and
generating then asks for it back: the excess over the fee without change is
compared with the dust threshold, not the change.
-/

section MissingChange

variable {R : Type} [RecipientProvider R] [LawfulRecipient R]

/-- What is left after the fee without change is more than dust, and what is
left after the fee with change is less. -/
structure GivesUpExcess (builder : TxBuilder R) : Prop where
  fixed :
    ∀ output ∈ builder.txTemplate.outputs, isMax output = false
  unchanged : builder.txTemplate.outputs.any isChange = false
  excess :
    valueTotal builder.txTemplate.outputs +
        builder.fundedTemplate.feeWoChange +
        builder.txTemplate.dustThreshold <
      coinTotal builder.funding
  dust :
    coinTotal builder.funding <
      valueTotal builder.txTemplate.outputs +
        builder.fundedTemplate.feeWithChange
          (some builder.changeProvider) +
        builder.txTemplate.dustThreshold

omit [LawfulRecipient R] in
/-- The change check does not depend on the order of inputs and outputs. -/
theorem checkMissingChange_shuffled
    {template : TxTemplate R}
    {changeRecipient : Option R}
    (sized : Sized template changeRecipient)
    {outputs : List R}
    (unchanged : outputs.any isChange = false)
    (outputsFit : amountTotal outputs ≤ u64Max)
    (sameWeight :
      weightOf template.inputs outputs =
        weightOf template.inputs template.outputs)
    (shuffle : Shuffle Coin × Shuffle R) :
    checkMissingChange (shuffle.1.apply template.inputs)
        (shuffle.2.apply outputs) template.fees template.dustThreshold =
      if
        template.dustThreshold <
          coinTotal template.inputs - amountTotal outputs -
            template.feeWoChange
      then
        .error (.err (.missingChange
          (coinTotal template.inputs - amountTotal outputs -
            template.feeWoChange)))
      else
        .ok () := by
  have inputs := shuffle.1.perm template.inputs
  have recipients := shuffle.2.perm outputs
  have total := coinTotal_perm inputs
  have amounts := amountTotal_perm recipients
  have weight := (weightOf_perm inputs recipients).trans sameWeight
  have lighter := weightOf_le_fullWeight template changeRecipient
  have sameFee :
      template.fees.of
          (weightOf (shuffle.1.apply template.inputs)
            (shuffle.2.apply outputs)) =
        template.feeWoChange := by
    rw [weight]
    rfl
  rw [checkMissingChange_of_fits
      ((any_isChange_perm recipients).trans unchanged)
      (total ▸ sized.inputsFit) (amounts ▸ outputsFit)
      (weight ▸ le_trans lighter sized.weightFits)
      (weight ▸ sized.feeFits.mono lighter) template.dustThreshold,
    sameFee, total, amounts]

omit [LawfulRecipient R] in
theorem not_missing_of_checked
    {template : TxTemplate R}
    {change : Option R}
    {outputs : List R}
    {miniscript : Miniscript}
    {shuffle : Shuffle Coin × Shuffle R}
    {spProvider : Option (SpPartialSecretProvider R)}
    {network : Network}
    {maxFeePercent maxFeeAmount excess : Nat}
    (prepared : template.prepareOutputs change = .ok outputs)
    (checked :
      checkMissingChange (shuffle.1.apply template.inputs)
          (shuffle.2.apply outputs) template.fees template.dustThreshold =
        .ok ()) :
    template.finalize miniscript change (some shuffle) spProvider network
        maxFeePercent maxFeeAmount false ≠
      .error (.err (.missingChange excess)) := by
  rw [finalize_of_prepared prepared, checked, ok_bind]
  intro missing
  rcases bind_eq_error.mp missing with failed | ⟨_, _, missing⟩
  · by_cases overflowed :
        checkDisproportionateFee (shuffle.1.apply template.inputs)
            (shuffle.2.apply outputs) maxFeePercent maxFeeAmount =
          .error (.panic .overflow)
    · rw [overflowed] at failed
      cases failed
    · have fits := checkDisproportionateFee_fits overflowed
      rw [checkDisproportionateFee_of_fits fits] at failed
      split at failed <;> cases failed
  · rcases assemble_error missing with
      ⟨_, same⟩ | same | same | same <;> cases same

/-- Generating misses change exactly when the simulation gave up more than
dust. -/
theorem generate_missing_change_iff
    {builder : TxBuilder R}
    {result : TransactionResult R}
    (simulated : builder.simulate = .ok result)
    (clean : result.error = none)
    (miniscript : Miniscript)
    (shuffle : Shuffle Coin × Shuffle R) :
    (∀ excess,
        builder.generate miniscript shuffle ≠
          .error (.err (.missingChange excess))) ↔
      ¬ GivesUpExcess builder := by
  have facts := TxBuilder.simulated simulated clean
  have generated :=
    TxBuilder.generate_of_simulated simulated clean miniscript shuffle
  have sized := facts.sized
  have settled := facts.settled
  generalize funds : builder.fundedTemplate = template at sized settled
  have sameOutputs : template.outputs = builder.txTemplate.outputs := by
    rw [← funds]
    rfl
  have sameInputs : template.inputs = builder.funding := by
    rw [← funds]
    rfl
  have sameDust :
      template.dustThreshold = builder.txTemplate.dustThreshold := by
    rw [← funds]
    rfl
  cases settled with
  | changed fixed worth =>
      constructor
      · intro _ gives
        have dust := gives.dust
        rw [← sameOutputs, ← sameInputs, ← sameDust, funds] at dust
        omega
      · intro _ excess
        rw [generated]
        rcases prepareOutputs_some template
            (setAmount
              (.value
                (template.changeRemainder (some builder.changeProvider)))
              builder.changeProvider) with
          ⟨_, refused⟩ | ⟨_, refused⟩ | ⟨changes, _, prepared⟩
        · intro missing
          rcases bind_eq_error.mp missing with failed | ⟨_, ready, _⟩
          · rw [TxBuilder.changeRecipient, Option.map_some, refused] at failed
            cases failed
          · rw [TxBuilder.changeRecipient, Option.map_some, refused] at ready
            cases ready
        · intro missing
          rcases bind_eq_error.mp missing with failed | ⟨_, ready, _⟩
          · rw [TxBuilder.changeRecipient, Option.map_some, refused] at failed
            cases failed
          · rw [TxBuilder.changeRecipient, Option.map_some, refused] at ready
            cases ready
        · apply not_missing_of_checked prepared
          apply checkMissingChange_of_change
          rw [any_isChange_perm (shuffle.2.perm _), List.any_append,
            List.any_cons, changes]
          simp
  | dropped fixed paid dust warnings quiet =>
      have prepared := prepareOutputs_none template
      have amounts := amountTotal_of_fixed fixed
      by_cases changes : template.outputs.any isChange = true
      · constructor
        · intro _ gives
          have unchanged := gives.unchanged
          rw [← sameOutputs, changes] at unchanged
          cases unchanged
        · intro _ excess
          rw [generated]
          apply not_missing_of_checked prepared
          apply checkMissingChange_of_change
          rw [any_isChange_perm (shuffle.2.perm _), changes]
      have unchanged := Bool.not_eq_true _ ▸ changes
      have covers : valueTotal template.outputs ≤ u64Max := by
        have fits := sized.inputsFit
        omega
      have checked :=
        checkMissingChange_shuffled sized unchanged (amounts ▸ covers) rfl
          shuffle
      rw [amounts] at checked
      constructor
      · intro never gives
        have excess := gives.excess
        rw [← sameOutputs, ← sameInputs, ← sameDust, funds] at excess
        apply never
          (coinTotal template.inputs - valueTotal template.outputs -
            template.feeWoChange)
        rw [if_pos (by omega)] at checked
        rw [generated]
        exact (finalize_of_prepared prepared miniscript shuffle _ _ _ _).trans
          (by rw [checked, error_bind])
      · intro keeps excess
        rw [generated]
        apply not_missing_of_checked prepared
        rw [checked, if_neg]
        intro excessive
        apply keeps
        refine ⟨?_, ?_, ?_, ?_⟩
        · rw [← sameOutputs]
          exact fixed
        · rw [← sameOutputs]
          exact unchanged
        · rw [← sameOutputs, ← sameInputs, ← sameDust, funds]
          omega
        · rw [← sameOutputs, ← sameInputs, ← sameDust, funds]
          exact dust
  | maxed before output after same drains fixedBefore fixedAfter worth =>
      constructor
      · intro _ gives
        have fixed := gives.fixed output
          (by rw [← sameOutputs, same]; simp)
        rw [drains] at fixed
        cases fixed
      · intro _ excess
        rw [generated]
        apply not_missing_of_checked (prepareOutputs_none _)
        by_cases changes : template.outputs.any isChange = true
        · apply checkMissingChange_of_change
          rw [any_isChange_perm (shuffle.2.perm _), any_isChange_modify,
            changes]
        have unchanged := Bool.not_eq_true _ ▸ changes
        have lighter :=
          feeWoChange_le template (some builder.changeProvider)
        have amounts :=
          amountTotal_modify same drains fixedBefore fixedAfter
            template.maxRemainder
        have share :
            valueTotal template.outputs + template.maxRemainder +
                template.feeWoChange =
              coinTotal template.inputs := by
          unfold TxTemplate.maxRemainder
          omega
        have covers :
            valueTotal template.outputs + template.maxRemainder ≤
              u64Max := by
          have fits := sized.inputsFit
          omega
        have checked :=
          checkMissingChange_shuffled sized
            ((any_isChange_modify _ _ _).trans unchanged)
            (amounts ▸ covers) (weightOf_modify _ _ _ _) shuffle
        rw [amounts, if_neg (by omega)] at checked
        exact checked

end MissingChange

namespace TxSample

/-- A coin of 90 000 satoshis pays 70 000 at a hundred satoshis a byte: 8 900
are left after the fee without change, 4 600 after the fee with it. -/
def givesUp : TxBuilder Boxed :=
  builder (template [coin 0 90000] [.value 70000] (.milliSatsVb 100000))

end TxSample

open TxSample in
/-- The simulation gives the 8 900 to the fee without an error, and generating
then misses them. -/
theorem given_up_change_missed :
    (∃ result, givesUp.simulate = .ok result ∧ result.error = none) ∧
      givesUp.generate miniscript inOrder =
        .error (.err (.missingChange 8900)) :=
  ⟨⟨_, rfl, rfl⟩, rfl⟩

open TxSample in
/-- A coin that leaves change is not missed. -/
theorem generate_missing_change_iff_sample :
    ∃ result,
      (builder (template [coin 0 90000] [.value 70000]
        (.milliSatsVb 1000))).simulate = .ok result ∧
      result.error = none ∧
      ((∀ excess,
          (builder (template [coin 0 90000] [.value 70000]
              (.milliSatsVb 1000))).generate miniscript inOrder ≠
            .error (.err (.missingChange excess))) ↔
        ¬ GivesUpExcess
          (builder (template [coin 0 90000] [.value 70000]
            (.milliSatsVb 1000)))) :=
  ⟨_, rfl, rfl, generate_missing_change_iff rfl rfl miniscript inOrder⟩

end Bwk.Tx
