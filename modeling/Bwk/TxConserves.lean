import Bwk.TxProportion

namespace Bwk.Tx

open RecipientProvider

/-!
# What a generated transaction pays

A generated PSBT spends the coins the simulation selected and pays every
recipient what it asked for, with the change the simulation reports; the rest
is the fee it reports.  That fee is the requested one but for the count of
outputs, which grows by two bytes when the change output is the 253rd.
-/

/-- Three lists of one length, related position by position. -/
inductive Aligned {α β γ : Type} (related : α → β → γ → Prop) :
    List α → List β → List γ → Prop where
  | nil : Aligned related [] [] []
  | cons
      {first : α}
      {second : β}
      {third : γ}
      {firsts : List α}
      {seconds : List β}
      {thirds : List γ}
      (head : related first second third)
      (tail : Aligned related firsts seconds thirds) :
      Aligned related (first :: firsts) (second :: seconds)
        (third :: thirds)

theorem countWeight_succ
    (count : Nat) :
    (if 253 ≤ count + 1 then 8 else 0) =
      (if 253 ≤ count then 8 else 0) + if count = 252 then 8 else 0 := by
  by_cases boundary : count = 252
  · subst boundary
    rfl
  · rw [if_neg boundary]
    by_cases many : 253 ≤ count
    · rw [if_pos many, if_pos (le_trans many (Nat.le_succ count))]
    · rw [if_neg many, if_neg]
      omega

section Conserves

variable {R : Type} [RecipientProvider R]

/-- An input of the transaction spends a coin, and its PSBT input describes
it. -/
def Spends
    (miniscript : Miniscript)
    (coin : Coin)
    (txin : TxIn)
    (input : PsbtInput) : Prop :=
  txin = coin.toTxIn ∧ describeInput miniscript coin = .ok input

/-- An output of the transaction pays a recipient its amount at its script,
and its PSBT output describes it. -/
def Pays
    (miniscript : Miniscript)
    (context : FinalizationContext)
    (recipient : R)
    (txout : TxOut)
    (output : PsbtOutput) : Prop :=
  txout.value = outputBitcoinAmount recipient ∧
    ∃ scripted after, ScriptedAs recipient scripted ∧
      createScript context scripted = .ok (txout.scriptPubkey, after) ∧
      describeOutput miniscript after = .ok output

/-- A recipient as it was asked for, with a value when it is maxed. -/
def AskedAs (recipient paid : R) : Prop :=
  (isMax recipient = false ∧ paid = recipient) ∨
    (isMax recipient = true ∧
      ∃ value, paid = setAmount (.max (some value)) recipient)

/-- The recipients a simulation pays: the template's, and the change. -/
def TxBuilder.finalOutputs
    (builder : TxBuilder R)
    (result : TransactionResult R) : List R :=
  result.txTemplate.outputs ++ (builder.changeRecipient result).toList

/-- The coins are spent and the recipients paid, in some order. -/
def LaidOut
    (builder : TxBuilder R)
    (miniscript : Miniscript)
    (result : TransactionResult R)
    (psbt : Psbt) : Prop :=
  ∃ coins recipients secret,
    coins.Perm builder.funding ∧
    recipients.Perm (builder.finalOutputs result) ∧
    Aligned (Spends miniscript) coins psbt.unsignedTx.input psbt.inputs ∧
    Aligned
      (Pays miniscript
        ⟨coins, secret, network builder.changeProvider⟩)
      recipients psbt.unsignedTx.output psbt.outputs

structure PaysExactly
    (builder : TxBuilder R)
    (miniscript : Miniscript)
    (result : TransactionResult R)
    (psbt : Psbt) : Prop where
  asked :
    List.Forall₂ AskedAs builder.txTemplate.outputs
      result.txTemplate.outputs
  selected : result.txTemplate.inputs = builder.funding
  laidOut : LaidOut builder miniscript result psbt
  /-- Inputs are outputs and the reported fee, which is the requested one at
  least. -/
  conserved :
    ∃ fee, result.fees = some fee ∧
      coinTotal builder.funding =
        (psbt.unsignedTx.output.map TxOut.value).sum + fee ∧
      builder.txTemplate.fees.of
          (weightOf builder.funding (builder.finalOutputs result)) ≤
        fee
  changeWorth :
    ∀ value, result.change = some value →
      isChange builder.changeProvider = true ∧
        builder.txTemplate.dustThreshold ≤ value
  maxWorth :
    ∀ recipient ∈ result.txTemplate.outputs, isMax recipient = true →
      ∃ value, amount recipient = .max (some value) ∧
        builder.txTemplate.dustThreshold ≤ value

/-- The change output does not lengthen the count of outputs, or the fee does
not notice. -/
def ChangeCounted
    (template : TxTemplate R)
    (changeProvider : R) : Prop :=
  template.outputs.any isMax = true ∨
    template.outputs.length ≠ 252 ∨
    coinTotal template.inputs <
      valueTotal template.outputs +
        template.feeWithChange (some changeProvider) +
        template.dustThreshold ∨
    template.fees.of (fullWeight template (some changeProvider) + 8) ≤
      template.feeWithChange (some changeProvider)

theorem aligned_inputs
    {miniscript : Miniscript}
    {coins : List Coin}
    {inputs : List PsbtInput}
    (described : coins.mapM (describeInput miniscript) = .ok inputs) :
    Aligned (Spends miniscript) coins (coins.map Coin.toTxIn) inputs := by
  induction coins generalizing inputs with
  | nil =>
      cases described
      exact .nil
  | cons coin rest ih =>
      rw [List.mapM_cons] at described
      obtain ⟨input, head, described⟩ := bind_eq_ok.mp described
      obtain ⟨later, tail, described⟩ := bind_eq_ok.mp described
      cases described
      exact .cons ⟨rfl, head⟩ (ih tail)

section Lawful

variable [LawfulRecipient R]

theorem outputBitcoinAmount_scripted
    {recipient scripted : R}
    (derived : ScriptedAs recipient scripted) :
    outputBitcoinAmount scripted = outputBitcoinAmount recipient := by
  rcases derived with rfl | ⟨_, script, rfl⟩
  · rfl
  · simp [outputBitcoinAmount]

variable {miniscript : Miniscript}

theorem aligned_outputs
    {context : FinalizationContext}
    {recipients derived : List R}
    (scripted : List.Forall₂ ScriptedAs recipients derived)
    {created : List (TxOut × R)}
    {outputs : List PsbtOutput}
    (creates : derived.mapM (createOutput context) = .ok created)
    (described :
      (created.map Prod.snd).mapM (describeOutput miniscript) =
        .ok outputs) :
    Aligned (Pays miniscript context) recipients (created.map Prod.fst)
      outputs := by
  induction scripted generalizing created outputs with
  | nil =>
      cases creates
      cases described
      exact .nil
  | cons head tail ih =>
      rename_i recipient after recipients derived
      rw [List.mapM_cons] at creates
      obtain ⟨output, creation, creates⟩ := bind_eq_ok.mp creates
      obtain ⟨later, creations, creates⟩ := bind_eq_ok.mp creates
      cases creates
      rw [List.map_cons, List.mapM_cons] at described
      obtain ⟨first, description, described⟩ := bind_eq_ok.mp described
      obtain ⟨others, descriptions, described⟩ := bind_eq_ok.mp described
      cases described
      obtain ⟨⟨script, final⟩, scripts, made⟩ := bind_eq_ok.mp creation
      cases made
      refine .cons ⟨outputBitcoinAmount_scripted head, after, final, head,
        liftPanic_eq_ok.mp scripts, description⟩ (ih creations descriptions)

theorem assemble_ok
    {spProvider : Option (SpPartialSecretProvider R)}
    {network : Network}
    {coins : List Coin}
    {recipients : List R}
    {psbt : Psbt}
    (built :
      assemble miniscript spProvider network coins recipients = .ok psbt) :
    ∃ secret,
      Aligned (Spends miniscript) coins psbt.unsignedTx.input psbt.inputs ∧
      Aligned (Pays miniscript ⟨coins, secret, network⟩) recipients
        psbt.unsignedTx.output psbt.outputs := by
  obtain ⟨⟨secret, derived⟩, deriving', built⟩ := bind_eq_ok.mp built
  obtain ⟨created, creates, built⟩ := bind_eq_ok.mp built
  obtain ⟨inputs, inputsDescribed, built⟩ := bind_eq_ok.mp built
  obtain ⟨outputs, outputsDescribed, built⟩ := bind_eq_ok.mp built
  cases built
  have unscripted : List.Forall₂ ScriptedAs recipients recipients :=
    List.forall₂_same.mpr (fun recipient _ => .inl rfl)
  have scripted : List.Forall₂ ScriptedAs recipients derived := by
    cases spProvider with
    | none =>
        cases deriving'
        exact unscripted
    | some spProvider =>
        obtain ⟨found, _, deriving'⟩ := bind_eq_ok.mp deriving'
        cases found with
        | none =>
            cases deriving'
            exact unscripted
        | some found =>
            obtain ⟨scripts, derives, deriving'⟩ := bind_eq_ok.mp deriving'
            cases deriving'
            exact spProvider.scripted recipients found derived
              (liftPanic_eq_ok.mp derives)
  exact ⟨secret, aligned_inputs inputsDescribed,
    aligned_outputs scripted creates outputsDescribed⟩

omit [LawfulRecipient R] in
/-- A recipient that is not left without a value is built with what it is
counted with. -/
theorem outputBitcoinAmount_eq
    {recipient : R}
    (valued : amount recipient ≠ .max none) :
    outputBitcoinAmount recipient = outputAmount recipient := by
  unfold outputBitcoinAmount outputAmount
  cases paid : amount recipient with
  | value sat => rfl
  | max sat =>
      cases sat with
      | some sat => rfl
      | none => exact absurd paid valued
  | anchor => rfl

omit [LawfulRecipient R] in
/-- The outputs of a transaction are worth what its recipients are built
with. -/
theorem Aligned.values
    {context : FinalizationContext}
    {recipients : List R}
    {txouts : List TxOut}
    {outputs : List PsbtOutput}
    (aligned : Aligned (Pays miniscript context) recipients txouts outputs) :
    txouts.map TxOut.value = recipients.map outputBitcoinAmount := by
  induction aligned with
  | nil => rfl
  | cons head tail ih => rw [List.map_cons, List.map_cons, head.1, ih]

omit [LawfulRecipient R] in
/-- A new last output weighs its weight, and two bytes more when the count of
outputs grows by them. -/
theorem weightOf_append_one
    (inputs : List Coin)
    (outputs : List R)
    (last : R) :
    weightOf inputs (outputs ++ [last]) =
      weightOf inputs outputs + outputWeight last +
        if outputs.length = 252 then 8 else 0 := by
  have count :
      ((outputs ++ [last]).map outputWeight).length = outputs.length + 1 := by
    simp
  rw [weightOf, weightOf, rawWeight, rawWeight, count, countWeight_succ,
    List.length_map, List.length_map, List.map_append, List.sum_append]
  simp only [List.map_cons, List.map_nil, List.sum_cons, List.sum_nil]
  omega

omit [LawfulRecipient R] in
theorem askedAs_fixed
    {outputs : List R}
    (fixed : ∀ output ∈ outputs, isMax output = false) :
    List.Forall₂ AskedAs outputs outputs := by
  induction outputs with
  | nil => exact .nil
  | cons output rest ih =>
      have head := fixed output List.mem_cons_self
      exact .cons (.inl ⟨head, rfl⟩)
        (ih (fun other member => fixed other (List.mem_cons_of_mem _ member)))

/-- What the result of a simulation adds up to. -/
structure Accounted
    (template : TxTemplate R)
    (result : TransactionResult R) : Prop where
  inputs : result.txTemplate.inputs = template.inputs
  asked :
    List.Forall₂ AskedAs template.outputs result.txTemplate.outputs
  maxWorth :
    ∀ recipient ∈ result.txTemplate.outputs, isMax recipient = true →
      ∃ value, amount recipient = .max (some value) ∧
        template.dustThreshold ≤ value
  changeWorth :
    ∀ value, result.change = some value → template.dustThreshold ≤ value
  shared :
    ∃ fee, result.fees = some fee ∧
      amountTotal result.txTemplate.outputs + result.change.getD 0 + fee =
        coinTotal template.inputs

variable {template : TxTemplate R} {result : TransactionResult R}

theorem Settled.accounted
    {changeRecipient : Option R}
    (settled : Settled template changeRecipient result) :
    Accounted template result := by
  have lighter := feeWoChange_le template changeRecipient
  cases settled with
  | changed fixed worth =>
      refine ⟨rfl, askedAs_fixed fixed, ?_, ?_, _, rfl, ?_⟩
      · intro recipient member drains
        rw [fixed recipient member] at drains
        cases drains
      · intro value same
        cases same
        unfold TxTemplate.changeRemainder
        omega
      · rw [amountTotal_of_fixed fixed, Option.getD_some]
        unfold TxTemplate.changeRemainder
        omega
  | dropped fixed paid dust warnings quiet =>
      refine ⟨rfl, askedAs_fixed fixed, ?_, ?_, _, rfl, ?_⟩
      · intro recipient member drains
        rw [fixed recipient member] at drains
        cases drains
      · intro value impossible
        cases impossible
      · rw [amountTotal_of_fixed fixed, Option.getD_none]
        omega
  | maxed before output after same drains fixedBefore fixedAfter worth =>
      have filled :
          template.outputs.modify before.length
              (setAmount (.max (some template.maxRemainder))) =
            before ++
              setAmount (.max (some template.maxRemainder)) output ::
                after := by
        rw [same, modify_split]
      refine ⟨rfl, ?_, ?_, ?_, _, rfl, ?_⟩
      · rw [filled, same]
        exact List.rel_append (askedAs_fixed fixedBefore)
          (.cons (.inr ⟨drains, _, rfl⟩) (askedAs_fixed fixedAfter))
      · intro recipient member isMaxed
        rw [filled, List.mem_append, List.mem_cons] at member
        rcases member with inBefore | rfl | inAfter
        · rw [fixedBefore recipient inBefore] at isMaxed
          cases isMaxed
        · refine ⟨_, LawfulRecipient.amount_setAmount _ _, ?_⟩
          unfold TxTemplate.maxRemainder
          omega
        · rw [fixedAfter recipient inAfter] at isMaxed
          cases isMaxed
      · intro value impossible
        cases impossible
      · have total :=
          amountTotal_modify same drains fixedBefore fixedAfter
            template.maxRemainder
        rw [total, Option.getD_none]
        unfold TxTemplate.maxRemainder
        omega

/-- The reported fee is at least the requested one of the finished outputs
exactly when the count of outputs is as estimated. -/
theorem Settled.requested_iff
    {changeProvider : R}
    {fee : Nat}
    (settled : Settled template (some changeProvider) result)
    (reported : result.fees = some fee) :
    template.fees.of
          (weightOf template.inputs
            (result.txTemplate.outputs ++
              (result.change.map
                (fun value =>
                  setAmount (.value value) changeProvider)).toList)) ≤
        fee ↔
      ChangeCounted template changeProvider := by
  cases settled with
  | changed fixed worth =>
      cases reported
      have free : template.outputs.any isMax = false := by
        apply List.any_eq_false.mpr
        intro output member
        rw [fixed output member]
        simp
      have weight :
          weightOf template.inputs
              (template.outputs ++
                [setAmount
                  (.value
                    (template.changeRemainder (some changeProvider)))
                  changeProvider]) =
            fullWeight template (some changeProvider) +
              if template.outputs.length = 252 then 8 else 0 := by
        rw [weightOf_append_one, LawfulRecipient.outputWeight_setAmount]
        rfl
      simp only [Option.map_some, Option.toList_some, weight]
      by_cases boundary : template.outputs.length = 252
      · rw [if_pos boundary]
        constructor
        · intro counted
          exact .inr (.inr (.inr counted))
        · rintro (drained | elsewhere | small | counted)
          · rw [free] at drained
            cases drained
          · exact absurd boundary elsewhere
          · omega
          · exact counted
      · rw [if_neg boundary]
        constructor
        · intro _
          exact .inr (.inl boundary)
        · intro _
          exact le_rfl
  | dropped fixed paid dust warnings quiet =>
      cases reported
      simp only [Option.map_none, Option.toList_none, List.append_nil]
      constructor
      · intro _
        exact .inr (.inr (.inl dust))
      · intro _
        have pays : template.feeWoChange ≤
            coinTotal template.inputs - valueTotal template.outputs := by
          omega
        exact pays
  | maxed before output after same drains fixedBefore fixedAfter worth =>
      cases reported
      have drained : template.outputs.any isMax = true := by
        rw [same, List.any_append, List.any_cons, drains]
        simp
      simp only [Option.map_none, Option.toList_none, List.append_nil,
        weightOf_modify]
      constructor
      · intro _
        exact .inl drained
      · intro _
        exact le_rfl

variable {builder : TxBuilder R} {miniscript : Miniscript}
variable {shuffle : Shuffle Coin × Shuffle R} {psbt : Psbt}

omit [LawfulRecipient R] in
theorem finalize_ok
    {change : Option R}
    {spProvider : Option (SpPartialSecretProvider R)}
    {network : Network}
    {maxFeePercent maxFeeAmount : Nat}
    (built :
      template.finalize miniscript change (some shuffle) spProvider network
        maxFeePercent maxFeeAmount false = .ok psbt) :
    (∀ recipient, change = some recipient → isChange recipient = true) ∧
      assemble miniscript spProvider network
          (shuffle.1.apply template.inputs)
          (shuffle.2.apply (template.outputs ++ change.toList)) =
        .ok psbt := by
  obtain ⟨outputs, prepared, _⟩ := bind_eq_ok.mp built
  rw [finalize_of_prepared prepared] at built
  obtain ⟨_, _, built⟩ := bind_eq_ok.mp built
  obtain ⟨_, _, assembled⟩ := bind_eq_ok.mp built
  cases change with
  | none =>
      cases prepared
      refine ⟨?_, ?_⟩
      · intro recipient impossible
        cases impossible
      · rw [Option.toList_none, List.append_nil]
        exact assembled
  | some recipient =>
      rcases prepareOutputs_some template recipient with
        ⟨_, refused⟩ | ⟨_, refused⟩ | ⟨changes, _, accepted⟩
      · rw [refused] at prepared
        cases prepared
      · rw [refused] at prepared
        cases prepared
      · rw [accepted] at prepared
        cases prepared
        refine ⟨?_, assembled⟩
        intro other same
        cases same
        exact changes

structure Delivers
    (builder : TxBuilder R)
    (miniscript : Miniscript)
    (result : TransactionResult R)
    (psbt : Psbt)
    (fee : Nat) : Prop where
  asked :
    List.Forall₂ AskedAs builder.txTemplate.outputs
      result.txTemplate.outputs
  selected : result.txTemplate.inputs = builder.funding
  laidOut : LaidOut builder miniscript result psbt
  reported : result.fees = some fee
  conserved :
    coinTotal builder.funding =
      (psbt.unsignedTx.output.map TxOut.value).sum + fee
  changeWorth :
    ∀ value, result.change = some value →
      isChange builder.changeProvider = true ∧
        builder.txTemplate.dustThreshold ≤ value
  maxWorth :
    ∀ recipient ∈ result.txTemplate.outputs, isMax recipient = true →
      ∃ value, amount recipient = .max (some value) ∧
        builder.txTemplate.dustThreshold ≤ value

theorem Accounted.values
    (accounted : Accounted builder.fundedTemplate result) :
    ((builder.finalOutputs result).map outputBitcoinAmount).sum =
      amountTotal result.txTemplate.outputs + result.change.getD 0 := by
  have valued :
      ∀ recipient ∈ builder.finalOutputs result,
        amount recipient ≠ .max none := by
    intro recipient member unvalued
    rcases List.mem_append.mp member with paid | changed
    · obtain ⟨value, filled, _⟩ :=
        accounted.maxWorth recipient paid (by simp [isMax, unvalued])
      rw [filled] at unvalued
      cases unvalued
    · unfold TxBuilder.changeRecipient at changed
      obtain ⟨value, _, rfl⟩ :=
        Option.map_eq_some_iff.mp (Option.mem_toList.mp changed)
      rw [LawfulRecipient.amount_setAmount] at unvalued
      cases unvalued
  have counted :
      (builder.finalOutputs result).map outputBitcoinAmount =
        (builder.finalOutputs result).map outputAmount :=
    List.map_congr_left
      (fun recipient member =>
        outputBitcoinAmount_eq (valued recipient member))
  have changeAmount :
      amountTotal (builder.changeRecipient result).toList =
        result.change.getD 0 := by
    unfold TxBuilder.changeRecipient
    cases result.change with
    | none => rfl
    | some value =>
        simp only [Option.map_some, Option.toList_some, amountTotal_cons,
          outputAmount_setValue, Option.getD_some]
        rfl
  calc
    ((builder.finalOutputs result).map outputBitcoinAmount).sum =
        amountTotal (builder.finalOutputs result) := by
      rw [counted, amountTotal]
    _ = amountTotal result.txTemplate.outputs + result.change.getD 0 := by
      rw [TxBuilder.finalOutputs, amountTotal_append, changeAmount]

/-- A generated PSBT spends the selected coins, pays the recipients, and
leaves the reported fee. -/
theorem generate_delivers
    (simulated : builder.simulate = .ok result)
    (built : builder.generate miniscript shuffle = .ok psbt) :
    Settled builder.fundedTemplate (some builder.changeProvider) result ∧
      ∃ fee, Delivers builder miniscript result psbt fee := by
  obtain ⟨other, again, clean⟩ := TxBuilder.simulate_of_generate built
  rw [simulated] at again
  cases again
  have settled := (TxBuilder.simulated simulated clean).settled
  have accounted := settled.accounted
  obtain ⟨fee, reported, shared⟩ := accounted.shared
  rw [TxBuilder.generate_of_simulated simulated clean] at built
  obtain ⟨changes, assembled⟩ := finalize_ok built
  obtain ⟨secret, spends, pays⟩ := assemble_ok assembled
  have selected : result.txTemplate.inputs = builder.funding :=
    accounted.inputs
  have recipients :
      (shuffle.2.apply
          (result.txTemplate.outputs ++
            (builder.changeRecipient result).toList)).Perm
        (builder.finalOutputs result) :=
    shuffle.2.perm _
  refine ⟨settled, fee, accounted.asked, selected, ?_, reported, ?_, ?_,
    accounted.maxWorth⟩
  · refine ⟨_, _, secret, ?_, recipients, spends, pays⟩
    rw [← selected]
    exact shuffle.1.perm _
  · rw [pays.values, (recipients.map outputBitcoinAmount).sum_eq,
      accounted.values]
    exact shared.symm
  · intro value same
    have change := changes _
      (show builder.changeRecipient result = some _ by
        rw [TxBuilder.changeRecipient, same]
        rfl)
    rw [LawfulRecipient.isChange_setAmount] at change
    exact ⟨change, accounted.changeWorth value same⟩

/-- A generated PSBT pays exactly what was asked for exactly when the change
output is counted as estimated. -/
theorem generate_pays_exactly_iff
    {builder : TxBuilder R}
    {result : TransactionResult R}
    {miniscript : Miniscript}
    {shuffle : Shuffle Coin × Shuffle R}
    {psbt : Psbt}
    (simulated : builder.simulate = .ok result)
    (built : builder.generate miniscript shuffle = .ok psbt) :
    PaysExactly builder miniscript result psbt ↔
      ChangeCounted builder.fundedTemplate builder.changeProvider := by
  obtain ⟨settled, fee, delivers⟩ := generate_delivers simulated built
  have requested := settled.requested_iff delivers.reported
  constructor
  · intro exact
    obtain ⟨other, same, _, covers⟩ := exact.conserved
    rw [delivers.reported] at same
    cases same
    exact requested.mp covers
  · intro counted
    exact ⟨delivers.asked, delivers.selected, delivers.laidOut,
      ⟨fee, delivers.reported, delivers.conserved, requested.mpr counted⟩,
      delivers.changeWorth, delivers.maxWorth⟩

end Lawful

end Conserves

namespace TxSample

/-- A coin of a million satoshis pays 252 recipients a thousand each. -/
def paysMany : TxBuilder Boxed :=
  builder
    (template [coin 0 1000000] (List.replicate 252 (.value 1000))
      (.milliSatsVb 1000))

/-- A coin of 90 000 satoshis pays one recipient. -/
def paysOne : TxBuilder Boxed :=
  builder (template [coin 0 90000] [.value 70000] (.milliSatsVb 1000))

end TxSample

set_option maxRecDepth 20000 in
open TxSample in
/-- With change there are 253 outputs: the fee of 10 947 is two satoshis below
the thousand millisatoshis asked for each of 10 949 virtual bytes. -/
theorem change_is_output_253 :
    ∃ result psbt, paysMany.simulate = .ok result ∧
      paysMany.generate miniscript inOrder = .ok psbt ∧
      result.fees = some 10947 ∧
      paysMany.txTemplate.fees.of
          (weightOf paysMany.funding (paysMany.finalOutputs result)) =
        10949 ∧
      ¬ PaysExactly paysMany miniscript result psbt := by
  refine ⟨_, _, rfl, rfl, rfl, rfl, ?_⟩
  intro exact
  obtain ⟨fee, reported, _, covers⟩ := exact.conserved
  cases reported
  exact absurd covers (by decide)

open TxSample in
/-- One recipient and change are paid exactly. -/
theorem generate_pays_exactly_iff_sample :
    ∃ result psbt, paysOne.simulate = .ok result ∧
      paysOne.generate miniscript inOrder = .ok psbt ∧
      (PaysExactly paysOne miniscript result psbt ↔
        ChangeCounted paysOne.fundedTemplate paysOne.changeProvider) := by
  have built : ∃ psbt, paysOne.generate miniscript inOrder = .ok psbt :=
    ⟨_, rfl⟩
  obtain ⟨psbt, built⟩ := built
  exact ⟨_, psbt, rfl, built, generate_pays_exactly_iff rfl built⟩

end Bwk.Tx
