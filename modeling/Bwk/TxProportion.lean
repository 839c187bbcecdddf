import Bwk.TxMissingChange

namespace Bwk.Tx

open RecipientProvider

/-!
# Warning and refusal of a disproportionate fee

The same check warns in a simulation and refuses in generating, but on
different outputs: the warning is made before the change output is added and
before the maxed output has its value, which both count as fee there.
-/

section Proportion

variable {R : Type} [RecipientProvider R]

/-- The warnings tell exactly of the refusal. -/
def WarningPredicts
    (builder : TxBuilder R)
    (miniscript : Miniscript)
    (shuffle : Shuffle Coin × Shuffle R)
    (result : TransactionResult R) : Prop :=
  ∀ fee paidOutputs,
    .disproportionateFees fee paidOutputs ∈ result.warnings ↔
      builder.generate miniscript shuffle =
        .error (.err (.disproportionateFees fee paidOutputs 10 2000000))

/-- Generating is not stopped by what it asks of change. -/
def PastChangeChecks (outcome : Outcome Psbt) : Prop :=
  outcome ≠ .error (.err .notChange) ∧
    outcome ≠ .error (.err .changeAlreadyAdded) ∧
    ∀ excess, outcome ≠ .error (.err (.missingChange excess))

/-- What is paid once the maxed output has its value. -/
def paidWithMax (template : TxTemplate R) : Nat :=
  paidTotal (template.outputs.filter (fun output => !isMax output)) +
    if
      template.outputs.any
        (fun output => isMax output && !isChange output)
    then
      template.maxRemainder
    else
      0

/-- With a maxed output, the warning counts it with its value already, or
neither check has anything to say.  With a change output, that is worth
nothing, or there is nothing to warn of. -/
def WarningExact (builder : TxBuilder R) : Prop :=
  let template := builder.fundedTemplate
  if template.outputs.any isMax then
    amountTotal template.outputs + template.feeWoChange =
        coinTotal template.inputs ∨
      (¬ Disproportionate
          (coinTotal template.inputs - amountTotal template.outputs)
          (paidTotal template.outputs) 10 2000000 ∧
        ¬ (paidWithMax template * 10 ≤ u64Max ∧
          Disproportionate template.feeWoChange (paidWithMax template) 10
            2000000))
  else
    coinTotal template.inputs <
        valueTotal template.outputs +
          template.feeWithChange (some builder.changeProvider) +
          template.dustThreshold ∨
      valueTotal template.outputs +
          template.feeWithChange (some builder.changeProvider) =
        coinTotal template.inputs ∨
      ¬ Disproportionate
        (coinTotal template.inputs - valueTotal template.outputs)
        (paidTotal template.outputs) 10 2000000

variable {template : TxTemplate R} {changeRecipient change : Option R}
variable {outputs : List R} {miniscript : Miniscript} {fee paidOutputs : Nat}
variable {shuffle : Shuffle Coin × Shuffle R}
variable {spProvider : Option (SpPartialSecretProvider R)} {network : Network}

theorem mem_proportionWarnings :
    .disproportionateFees fee paidOutputs ∈ proportionWarnings template ↔
      fee = coinTotal template.inputs - amountTotal template.outputs ∧
        paidOutputs = paidTotal template.outputs ∧
        Disproportionate fee paidOutputs 10 2000000 := by
  unfold proportionWarnings
  by_cases refused :
      Disproportionate
        (coinTotal template.inputs - amountTotal template.outputs)
        (paidTotal template.outputs) 10 2000000
  · rw [if_pos refused, List.mem_singleton,
      Warning.disproportionateFees.injEq]
    constructor
    · rintro ⟨rfl, rfl⟩
      exact ⟨rfl, rfl, refused⟩
    · rintro ⟨rfl, rfl, _⟩
      exact ⟨rfl, rfl⟩
  · rw [if_neg refused]
    constructor
    · intro impossible
      cases impossible
    · rintro ⟨rfl, rfl, found⟩
      exact absurd found refused

theorem finalize_refuses_iff
    {change : Option R}
    (prepared : template.prepareOutputs change = .ok outputs)
    (checked :
      checkMissingChange (shuffle.1.apply template.inputs)
          (shuffle.2.apply outputs) template.fees template.dustThreshold =
        .ok ())
    (inputsFit : coinTotal template.inputs ≤ u64Max)
    (outputsFit : amountTotal outputs ≤ u64Max) :
    template.finalize miniscript change (some shuffle) spProvider network 10
          2000000 false =
        .error (.err (.disproportionateFees fee paidOutputs 10 2000000)) ↔
      fee = coinTotal template.inputs - amountTotal outputs ∧
        paidOutputs = paidTotal outputs ∧
        paidTotal outputs * 10 ≤ u64Max ∧
        Disproportionate fee paidOutputs 10 2000000 := by
  have inputs := coinTotal_perm (shuffle.1.perm template.inputs)
  have amounts := amountTotal_perm (shuffle.2.perm outputs)
  have paid := paidTotal_perm (shuffle.2.perm outputs)
  rw [finalize_of_prepared prepared, checked, ok_bind]
  by_cases shareFits : paidTotal outputs * 10 ≤ u64Max
  · have fits :
        ProportionFits (shuffle.1.apply template.inputs)
          (shuffle.2.apply outputs) 10 :=
      ⟨inputs ▸ inputsFit, amounts ▸ outputsFit, paid ▸ shareFits⟩
    rw [checkDisproportionateFee_of_fits fits, inputs, amounts, paid]
    by_cases refused :
        Disproportionate (coinTotal template.inputs - amountTotal outputs)
          (paidTotal outputs) 10 2000000
    · rw [if_pos refused, error_bind, Except.error.injEq,
        Stop.err.injEq, Error.disproportionateFees.injEq]
      constructor
      · rintro ⟨rfl, rfl, _, _⟩
        exact ⟨rfl, rfl, shareFits, refused⟩
      · rintro ⟨rfl, rfl, _, _⟩
        exact ⟨rfl, rfl, rfl, rfl⟩
    · rw [if_neg refused, ok_bind]
      constructor
      · intro stopped
        rcases assemble_error stopped with
          ⟨_, same⟩ | same | same | same <;> cases same
      · rintro ⟨rfl, rfl, _, found⟩
        exact absurd found refused
  · have overflowed :
        checkDisproportionateFee (shuffle.1.apply template.inputs)
            (shuffle.2.apply outputs) 10 2000000 =
          .error (.panic .overflow) := by
      by_contra returned
      have fits := checkDisproportionateFee_fits returned
      exact shareFits (paid ▸ fits.shareFits)
    rw [overflowed, error_bind]
    constructor
    · intro impossible
      cases impossible
    · rintro ⟨_, _, fits, _⟩
      exact absurd fits shareFits

theorem checked_of_past
    {maxFeePercent maxFeeAmount : Nat}
    (sized : Sized template changeRecipient)
    (prepared : template.prepareOutputs change = .ok outputs)
    (outputsFit : amountTotal outputs ≤ u64Max)
    (sameWeight :
      outputs.any isChange = false →
        weightOf template.inputs outputs =
          weightOf template.inputs template.outputs)
    (past :
      PastChangeChecks
        (template.finalize miniscript change (some shuffle) spProvider network
          maxFeePercent maxFeeAmount false)) :
    checkMissingChange (shuffle.1.apply template.inputs)
        (shuffle.2.apply outputs) template.fees template.dustThreshold =
      .ok () := by
  by_cases changes : outputs.any isChange = true
  · apply checkMissingChange_of_change
    rw [any_isChange_perm (shuffle.2.perm _), changes]
  have unchanged := Bool.not_eq_true _ ▸ changes
  have checked :=
    checkMissingChange_shuffled sized unchanged outputsFit
      (sameWeight unchanged) shuffle
  by_cases missing :
      template.dustThreshold <
        coinTotal template.inputs - amountTotal outputs -
          template.feeWoChange
  · rw [if_pos missing] at checked
    have stopped :=
      finalize_of_prepared prepared miniscript shuffle spProvider network
        maxFeePercent maxFeeAmount
    rw [checked, error_bind] at stopped
    exact absurd stopped (past.2.2 _)
  · rw [checked, if_neg missing]

/-- What two runs of the check say is the same where both see the same, or
neither says anything. -/
theorem same_verdict_iff
    {warnedFee warnedPaid refusedFee refusedPaid : Nat}
    {fits : Prop} :
    (∀ fee paidOutputs,
        (fee = warnedFee ∧ paidOutputs = warnedPaid ∧
            Disproportionate fee paidOutputs 10 2000000) ↔
          (fee = refusedFee ∧ paidOutputs = refusedPaid ∧ fits ∧
            Disproportionate fee paidOutputs 10 2000000)) ↔
      (warnedFee = refusedFee ∧ warnedPaid = refusedPaid ∧ fits ∧
          Disproportionate warnedFee warnedPaid 10 2000000) ∨
        (¬ Disproportionate warnedFee warnedPaid 10 2000000 ∧
          ¬ (fits ∧
            Disproportionate refusedFee refusedPaid 10 2000000)) := by
  constructor
  · intro same
    by_cases warned : Disproportionate warnedFee warnedPaid 10 2000000
    · obtain ⟨fee, paid, fitting, _⟩ :=
        (same warnedFee warnedPaid).mp ⟨rfl, rfl, warned⟩
      exact .inl ⟨fee, paid, fitting, warned⟩
    · right
      refine ⟨warned, ?_⟩
      rintro ⟨fitting, refused⟩
      obtain ⟨rfl, rfl, found⟩ :=
        (same refusedFee refusedPaid).mpr ⟨rfl, rfl, fitting, refused⟩
      exact warned found
  · rintro (⟨rfl, rfl, fitting, _⟩ | ⟨unwarned, unrefused⟩) fee paidOutputs
    · constructor
      · rintro ⟨sameFee, samePaid, found⟩
        exact ⟨sameFee, samePaid, fitting, found⟩
      · rintro ⟨sameFee, samePaid, _, found⟩
        exact ⟨sameFee, samePaid, found⟩
    · constructor
      · rintro ⟨rfl, rfl, found⟩
        exact absurd found unwarned
      · rintro ⟨rfl, rfl, fitting, found⟩
        exact absurd ⟨fitting, found⟩ unrefused

/-- Warning and refusal agree where the check says the same of the outputs
before and after. -/
theorem predicts_iff_same_verdict
    {warnings : List Warning}
    (sized : Sized template changeRecipient)
    (prepared : template.prepareOutputs change = .ok outputs)
    (outputsFit : amountTotal outputs ≤ u64Max)
    (sameWeight :
      outputs.any isChange = false →
        weightOf template.inputs outputs =
          weightOf template.inputs template.outputs)
    (quiet :
      ∀ fee paidOutputs,
        .disproportionateFees fee paidOutputs ∉ warnings)
    (original : TxTemplate R)
    (past :
      PastChangeChecks
        (template.finalize miniscript change (some shuffle) spProvider network
          10 2000000 false)) :
    (∀ fee paidOutputs,
        .disproportionateFees fee paidOutputs ∈
            warnings ++ proportionWarnings original ↔
          template.finalize miniscript change (some shuffle) spProvider
              network 10 2000000 false =
            .error
              (.err (.disproportionateFees fee paidOutputs 10 2000000))) ↔
      (coinTotal original.inputs - amountTotal original.outputs =
            coinTotal template.inputs - amountTotal outputs ∧
          paidTotal original.outputs = paidTotal outputs ∧
          paidTotal outputs * 10 ≤ u64Max ∧
          Disproportionate
            (coinTotal original.inputs - amountTotal original.outputs)
            (paidTotal original.outputs) 10 2000000) ∨
        (¬ Disproportionate
            (coinTotal original.inputs - amountTotal original.outputs)
            (paidTotal original.outputs) 10 2000000 ∧
          ¬ (paidTotal outputs * 10 ≤ u64Max ∧
            Disproportionate
              (coinTotal template.inputs - amountTotal outputs)
              (paidTotal outputs) 10 2000000)) := by
  have checked := checked_of_past sized prepared outputsFit sameWeight past
  rw [← same_verdict_iff]
  apply forall_congr'
  intro fee
  apply forall_congr'
  intro paidOutputs
  rw [List.mem_append, mem_proportionWarnings,
    finalize_refuses_iff prepared checked sized.inputsFit outputsFit]
  simp only [quiet fee paidOutputs, false_or]

omit [RecipientProvider R] in
theorem filter_fixed
    [RecipientProvider R]
    (fixed : ∀ output ∈ outputs, isMax output = false) :
    outputs.filter (fun output => !isMax output) = outputs := by
  apply List.filter_eq_self.mpr
  intro output member
  rw [fixed output member]
  rfl

/-- One output of a list is paid what it is counted with, unless it is
change. -/
theorem paidTotal_split
    (before : List R)
    (output : R)
    (after : List R) :
    paidTotal (before ++ output :: after) =
      paidTotal before + paidTotal after +
        if !isChange output then outputAmount output else 0 := by
  rw [paidTotal_append]
  cases change : isChange output with
  | true =>
      rw [paidTotal_cons_change change]
      simp
  | false =>
      rw [paidTotal_cons_paid change]
      simp only [Bool.not_false, if_true]
      omega

theorem paidWithMax_split
    {before : List R}
    {output : R}
    {after : List R}
    (same : template.outputs = before ++ output :: after)
    (drains : isMax output = true)
    (fixedBefore : ∀ other ∈ before, isMax other = false)
    (fixedAfter : ∀ other ∈ after, isMax other = false) :
    paidWithMax template =
      paidTotal before + paidTotal after +
        if !isChange output then template.maxRemainder else 0 := by
  have fixedOutputs :
      template.outputs.filter (fun other => !isMax other) =
        before ++ after := by
    rw [same, List.filter_append, filter_fixed fixedBefore,
      List.filter_cons_of_neg (by simp [drains]), filter_fixed fixedAfter]
  have skips :
      ∀ {others : List R},
        (∀ other ∈ others, isMax other = false) →
          others.any (fun other => isMax other && !isChange other) =
            false := by
    intro others fixed
    apply List.any_eq_false.mpr
    intro other member
    rw [fixed other member]
    simp
  have paidMax :
      template.outputs.any (fun other => isMax other && !isChange other) =
        !isChange output := by
    rw [same, List.any_append, List.any_cons, skips fixedBefore,
      skips fixedAfter, drains]
    simp
  rw [paidWithMax, fixedOutputs, paidMax, paidTotal_append]

section Lawful

variable [LawfulRecipient R]

theorem paidTotal_modify
    {before : List R}
    {output : R}
    {after : List R}
    (same : template.outputs = before ++ output :: after)
    (drains : isMax output = true)
    (fixedBefore : ∀ other ∈ before, isMax other = false)
    (fixedAfter : ∀ other ∈ after, isMax other = false) :
    paidTotal
        (template.outputs.modify before.length
          (setAmount (.max (some template.maxRemainder)))) =
      paidWithMax template := by
  rw [paidWithMax_split same drains fixedBefore fixedAfter, same,
    modify_split, paidTotal_split, outputAmount_setMax,
    LawfulRecipient.isChange_setAmount]

/-- A change output counts as fee in the warning and not in the refusal. -/
theorem same_verdict_changed
    {total amounts paid fee change : Nat}
    (share : amounts + change + fee = total)
    (fits : paid * 10 ≤ u64Max) :
    (total - amounts = total - (amounts + change) ∧ paid = paid ∧
          paid * 10 ≤ u64Max ∧
          Disproportionate (total - amounts) paid 10 2000000) ∨
        (¬ Disproportionate (total - amounts) paid 10 2000000 ∧
          ¬ (paid * 10 ≤ u64Max ∧
            Disproportionate (total - (amounts + change)) paid 10
              2000000)) ↔
      (amounts + fee = total ∨
        ¬ Disproportionate (total - amounts) paid 10 2000000) := by
  constructor
  · rintro (⟨same, _, _, _⟩ | ⟨unwarned, _⟩)
    · left
      omega
    · exact .inr unwarned
  · intro exact
    by_cases warned : Disproportionate (total - amounts) paid 10 2000000
    · left
      rcases exact with worthless | unwarned
      · exact ⟨by omega, rfl, fits, warned⟩
      · exact absurd warned unwarned
    · right
      refine ⟨warned, ?_⟩
      rintro ⟨_, unpaid, above, most⟩
      exact warned ⟨unpaid, by omega, by omega⟩

/-- A maxed output counts with what it held before in the warning, and with
what it gets in the refusal. -/
theorem same_verdict_maxed
    {total before after paidBefore paidAfter fee : Nat}
    (share : after + fee = total)
    (samePaid : before = after → paidBefore = paidAfter)
    (fits : paidBefore * 10 ≤ u64Max) :
    (total - before = total - after ∧ paidBefore = paidAfter ∧
          paidAfter * 10 ≤ u64Max ∧
          Disproportionate (total - before) paidBefore 10 2000000) ∨
        (¬ Disproportionate (total - before) paidBefore 10 2000000 ∧
          ¬ (paidAfter * 10 ≤ u64Max ∧
            Disproportionate (total - after) paidAfter 10 2000000)) ↔
      (before + fee = total ∨
        (¬ Disproportionate (total - before) paidBefore 10 2000000 ∧
          ¬ (paidAfter * 10 ≤ u64Max ∧
            Disproportionate fee paidAfter 10 2000000))) := by
  have refusedFee : total - after = fee := by
    omega
  rw [refusedFee]
  constructor
  · rintro (⟨same, _, _, warned⟩ | neither)
    · left
      have above := warned.2.2
      omega
    · exact .inr neither
  · rintro (same | neither)
    · have unmoved : before = after := by
        omega
      have paid := samePaid unmoved
      by_cases warned :
          Disproportionate (total - before) paidBefore 10 2000000
      · exact .inl ⟨by omega, paid, paid ▸ fits, warned⟩
      · right
        refine ⟨warned, ?_⟩
        rintro ⟨_, refused⟩
        rw [← paid, ← refusedFee, ← unmoved] at refused
        exact warned refused
    · exact .inr neither

/-- The warnings predict the refusal exactly where the check sees the same
both times or says nothing. -/
theorem warning_predicts_iff
    {builder : TxBuilder R}
    {result : TransactionResult R}
    (simulated : builder.simulate = .ok result)
    (clean : result.error = none)
    (percent : builder.maxFeePercent = 10)
    (maxAmount : builder.maxFeeAmount = 2000000)
    (miniscript : Miniscript)
    (shuffle : Shuffle Coin × Shuffle R)
    (past : PastChangeChecks (builder.generate miniscript shuffle)) :
    WarningPredicts builder miniscript shuffle result ↔
      WarningExact builder := by
  have facts := TxBuilder.simulated simulated clean
  have generated :=
    TxBuilder.generate_of_simulated simulated clean miniscript shuffle
  rw [percent, maxAmount] at generated
  rw [generated] at past
  unfold WarningPredicts WarningExact
  simp only [generated]
  have sized := facts.sized
  have settled := facts.settled
  have proportion :
      ProportionFits builder.fundedTemplate.inputs
        builder.fundedTemplate.outputs 10 :=
    facts.proportion
  generalize builder.fundedTemplate = template at sized settled proportion ⊢
  have free :
      (∀ output ∈ template.outputs, isMax output = false) →
        template.outputs.any isMax = false := by
    intro fixed
    apply List.any_eq_false.mpr
    intro output member
    rw [fixed output member]
    simp
  have inputsFit := sized.inputsFit
  have silent :
      ∀ fee paidOutputs,
        .disproportionateFees fee paidOutputs ∉ ([] : List Warning) := by
    intro fee paidOutputs
    exact List.not_mem_nil
  cases settled with
  | changed fixed worth =>
      have amounts := amountTotal_of_fixed fixed
      have share :
          valueTotal template.outputs +
              template.changeRemainder (some builder.changeProvider) +
              template.feeWithChange (some builder.changeProvider) =
            coinTotal template.inputs := by
        unfold TxTemplate.changeRemainder
        omega
      rcases prepareOutputs_some template
          (setAmount
            (.value
              (template.changeRemainder (some builder.changeProvider)))
            builder.changeProvider) with
        ⟨_, refused⟩ | ⟨_, refused⟩ | ⟨changes, _, prepared⟩
      · have stopped := past.1
        rw [TxTemplate.finalize, TxBuilder.changeRecipient, Option.map_some,
          refused] at stopped
        exact absurd rfl stopped
      · have stopped := past.2.1
        rw [TxTemplate.finalize, TxBuilder.changeRecipient, Option.map_some,
          refused] at stopped
        exact absurd rfl stopped
      have finalAmounts :
          amountTotal
              (template.outputs ++
                [setAmount
                  (.value
                    (template.changeRemainder
                      (some builder.changeProvider)))
                  builder.changeProvider]) =
            valueTotal template.outputs +
              template.changeRemainder (some builder.changeProvider) := by
        rw [amountTotal_append, amountTotal_cons, outputAmount_setValue,
          amounts]
        rfl
      have finalPaid :
          paidTotal
              (template.outputs ++
                [setAmount
                  (.value
                    (template.changeRemainder
                      (some builder.changeProvider)))
                  builder.changeProvider]) =
            paidTotal template.outputs := by
        rw [paidTotal_append, paidTotal_cons_change changes]
        rfl
      have outputsFit :
          valueTotal template.outputs +
              template.changeRemainder (some builder.changeProvider) ≤
            u64Max := by
        omega
      have sees :
          (template.outputs ++
              [setAmount
                (.value
                  (template.changeRemainder (some builder.changeProvider)))
                builder.changeProvider]).any isChange = true := by
        rw [List.any_append, List.any_cons, changes]
        simp
      rw [if_neg (by rw [free fixed]; simp)]
      have verdict :=
        predicts_iff_same_verdict sized prepared (finalAmounts ▸ outputsFit)
          (fun unchanged => absurd sees (by rw [unchanged]; simp)) silent
          template past
      rw [List.nil_append, amounts, finalAmounts, finalPaid] at verdict
      refine verdict.trans
        ((same_verdict_changed share proportion.shareFits).trans ?_)
      constructor
      · exact Or.inr
      · rintro (small | exact)
        · omega
        · exact exact
  | dropped fixed paid dust warnings quiet =>
      have amounts := amountTotal_of_fixed fixed
      have verdict :=
        predicts_iff_same_verdict sized (prepareOutputs_none template)
          proportion.outputsFit (fun _ => rfl) quiet template past
      rw [if_neg (by rw [free fixed]; simp)]
      refine verdict.trans ?_
      constructor
      · intro _
        exact .inl dust
      · intro _
        by_cases warned :
            Disproportionate
              (coinTotal template.inputs - amountTotal template.outputs)
              (paidTotal template.outputs) 10 2000000
        · exact .inl ⟨rfl, rfl, proportion.shareFits, warned⟩
        · exact .inr ⟨warned, fun refused => warned refused.2⟩
  | maxed before output after same drains fixedBefore fixedAfter worth =>
      have lighter := feeWoChange_le template (some builder.changeProvider)
      have share :
          valueTotal template.outputs + template.maxRemainder +
              template.feeWoChange =
            coinTotal template.inputs := by
        unfold TxTemplate.maxRemainder
        omega
      have finalAmounts :=
        amountTotal_modify same drains fixedBefore fixedAfter
          template.maxRemainder
      have finalPaid :=
        paidTotal_modify same drains fixedBefore fixedAfter
      have outputsFit :
          valueTotal template.outputs + template.maxRemainder ≤ u64Max := by
        omega
      have drained : template.outputs.any isMax = true := by
        rw [same, List.any_append, List.any_cons, drains]
        simp
      have held :
          amountTotal template.outputs =
            valueTotal template.outputs + outputAmount output := by
        rw [same, amountTotal_append, amountTotal_cons,
          amountTotal_of_fixed fixedBefore, amountTotal_of_fixed fixedAfter,
          valueTotal_append, valueTotal_cons, valueOf_of_max drains]
        omega
      have samePaid :
          amountTotal template.outputs =
              valueTotal template.outputs + template.maxRemainder →
            paidTotal template.outputs = paidWithMax template := by
        intro unmoved
        have filled : outputAmount output = template.maxRemainder := by
          omega
        rw [paidWithMax_split same drains fixedBefore fixedAfter, same,
          paidTotal_split, filled]
      rw [if_pos drained]
      have filledSized :
          Sized
            { template with
              outputs :=
                template.outputs.modify before.length
                  (setAmount (.max (some template.maxRemainder))) }
            (some builder.changeProvider) := by
        refine ⟨inputsFit, ?_, ?_⟩
        · rw [fullWeight, weightOf_modify]
          exact sized.weightFits
        · rw [fullWeight, weightOf_modify]
          exact sized.feeFits
      have verdict :=
        predicts_iff_same_verdict filledSized (prepareOutputs_none _)
          (finalAmounts ▸ outputsFit) (fun _ => rfl) silent template past
      rw [List.nil_append, finalAmounts, finalPaid] at verdict
      exact verdict.trans
        (same_verdict_maxed share samePaid proportion.shareFits)

end Lawful

end Proportion

namespace TxSample

/-- A coin of ten million satoshis pays one million. -/
def paysLittle : TxBuilder Boxed :=
  builder (template [coin 0 10000000] [.value 1000000] (.milliSatsVb 1000))

end TxSample

open TxSample in
/-- Nine million satoshis of change are warned of as fee; the transaction is
built all the same. -/
theorem change_warned_of_as_fee :
    ∃ result, paysLittle.simulate = .ok result ∧ result.error = none ∧
      result.warnings = [.disproportionateFees 9000000 1000000] ∧
      PastChangeChecks (paysLittle.generate miniscript inOrder) ∧
      ¬ WarningPredicts paysLittle miniscript inOrder result := by
  have built :
      ∃ psbt, paysLittle.generate miniscript inOrder = .ok psbt :=
    ⟨_, rfl⟩
  obtain ⟨psbt, built⟩ := built
  refine ⟨_, rfl, rfl, rfl, ?_, ?_⟩
  · rw [built]
    refine ⟨?_, ?_, fun excess => ?_⟩ <;> exact fun same => by cases same
  · intro predicts
    have refused :=
      (predicts 9000000 1000000).mp (List.mem_singleton.mpr rfl)
    rw [built] at refused
    cases refused

open TxSample in
/-- A small coin is not warned of. -/
theorem warning_predicts_iff_sample :
    ∃ result,
      (builder (template [coin 0 90000] [.value 70000]
        (.milliSatsVb 1000))).simulate = .ok result ∧
      result.error = none ∧
      PastChangeChecks
        ((builder (template [coin 0 90000] [.value 70000]
          (.milliSatsVb 1000))).generate miniscript inOrder) ∧
      (WarningPredicts
          (builder (template [coin 0 90000] [.value 70000]
            (.milliSatsVb 1000)))
          miniscript inOrder result ↔
        WarningExact
          (builder (template [coin 0 90000] [.value 70000]
            (.milliSatsVb 1000)))) := by
  have past :
      PastChangeChecks
        ((builder (template [coin 0 90000] [.value 70000]
          (.milliSatsVb 1000))).generate miniscript inOrder) := by
    refine ⟨?_, ?_, fun excess => ?_⟩ <;> exact fun same => by cases same
  exact ⟨_, rfl, rfl, past,
    warning_predicts_iff rfl rfl rfl rfl miniscript inOrder past⟩

end Bwk.Tx
