import Bwk.TxBuild

namespace Bwk.Tx

open RecipientProvider

/-!
# What a simulation reports

The three results a simulation without an error can have: a change output, a
maxed output that gets the rest, or a rest that goes to the fee.  From each,
what the finished inputs and outputs add up to.
-/

theorem modify_split
    {α : Type}
    (before : List α)
    (output : α)
    (after : List α)
    (change : α → α) :
    (before ++ output :: after).modify before.length change =
      before ++ change output :: after := by
  induction before with
  | nil => rfl
  | cons head rest ih =>
      rw [List.cons_append, List.length_cons, List.modify_succ_cons, ih,
        List.cons_append]

section Settled

variable {R : Type} [RecipientProvider R]

def TxTemplate.funded
    (template : TxTemplate R)
    (inputs : List Coin) : TxTemplate R :=
  { template with inputs := inputs }

/-- What a maxed output gets. -/
def TxTemplate.maxRemainder (template : TxTemplate R) : Nat :=
  coinTotal template.inputs - valueTotal template.outputs -
    template.feeWoChange

/-- What a change output gets. -/
def TxTemplate.changeRemainder
    (template : TxTemplate R)
    (changeRecipient : Option R) : Nat :=
  coinTotal template.inputs - valueTotal template.outputs -
    template.feeWithChange changeRecipient

/-- The results of a simulation without an error. -/
inductive Settled
    (template : TxTemplate R)
    (changeRecipient : Option R) : TransactionResult R → Prop where
  /-- There is a change output. -/
  | changed
      (fixed : ∀ output ∈ template.outputs, isMax output = false)
      (worth :
        valueTotal template.outputs +
            template.feeWithChange changeRecipient +
            template.dustThreshold ≤
          coinTotal template.inputs) :
      Settled template changeRecipient
        ⟨template,
          some (template.changeRemainder changeRecipient),
          some (template.feeWithChange changeRecipient),
          proportionWarnings template, none⟩
  /-- The rest goes to the fee. -/
  | dropped
      (fixed : ∀ output ∈ template.outputs, isMax output = false)
      (paid :
        valueTotal template.outputs + template.feeWoChange ≤
          coinTotal template.inputs)
      (dust :
        coinTotal template.inputs <
          valueTotal template.outputs +
            template.feeWithChange changeRecipient +
            template.dustThreshold)
      (warnings : List Warning)
      (quiet :
        ∀ fee paidOutputs,
          .disproportionateFees fee paidOutputs ∉ warnings) :
      Settled template changeRecipient
        ⟨template, none,
          some (coinTotal template.inputs - valueTotal template.outputs),
          warnings ++ proportionWarnings template, none⟩
  /-- The maxed output gets the rest. -/
  | maxed
      (before : List R)
      (output : R)
      (after : List R)
      (same : template.outputs = before ++ output :: after)
      (drains : isMax output = true)
      (fixedBefore : ∀ other ∈ before, isMax other = false)
      (fixedAfter : ∀ other ∈ after, isMax other = false)
      (worth :
        valueTotal template.outputs +
            template.feeWithChange changeRecipient +
            template.dustThreshold ≤
          coinTotal template.inputs) :
      Settled template changeRecipient
        ⟨{ template with
            outputs :=
              template.outputs.modify before.length
                (setAmount (.max (some template.maxRemainder))) },
          none, some template.feeWoChange, proportionWarnings template,
          none⟩

variable (drain : Drain) {template : TxTemplate R} {builder : TxBuilder R}
variable {miniscript : Miniscript}
variable {spProvider : Option (SpPartialSecretProvider R)}
variable (lost fee paidOutputs : Nat) {changeRecipient : Option R}
variable {recipient : R} {outputs : List R} {inputs : List Coin}
variable {result : TransactionResult R} {stop : Stop} {shared : FeeResult}

theorem underDust_quiet :
    .disproportionateFees fee paidOutputs ∉ drain.underDust lost := by
  cases drain <;> simp [Drain.underDust]

theorem createDust_quiet :
    .disproportionateFees fee paidOutputs ∉ drain.createDust lost := by
  cases drain <;> simp [Drain.createDust]

theorem placeDrain_settled
    {maxed : Option Nat}
    (places : Maxed template.outputs maxed)
    (shares :
      Shares template (valueTotal template.outputs) maxed changeRecipient
        shared)
    (placed :
      placeDrain
        { TransactionResult.fromTemplate template with
          fees := shared.fees
          warnings := shared.warnings ++ proportionWarnings template }
        maxed shared.max shared.change = .ok result) :
    Settled template changeRecipient result := by
  have lighter := feeWoChange_le template changeRecipient
  cases places with
  | free fixed =>
      cases shares with
      | underDust paid under =>
          have dust :
              coinTotal template.inputs <
                valueTotal template.outputs +
                  template.feeWithChange changeRecipient +
                  template.dustThreshold :=
            lt_of_lt_of_le under
              (Nat.add_le_add_right (Nat.add_le_add_left lighter _) _)
          cases placed
          refine .dropped fixed paid dust _ ?_
          intro fee paidOutputs
          exact underDust_quiet (drainOf none) _ fee paidOutputs
      | createDust above paid dust =>
          cases placed
          refine
            .dropped fixed (le_trans (Nat.le_add_right _ _) above) dust _ ?_
          intro fee paidOutputs
          exact createDust_quiet (drainOf none) _ fee paidOutputs
      | settled worth =>
          cases placed
          exact .changed fixed worth
  | single before output after same drains fixedBefore fixedAfter =>
      cases shares with
      | underDust paid under => cases placed
      | createDust above paid dust => cases placed
      | settled worth =>
          cases placed
          exact .maxed before output after same drains fixedBefore fixedAfter
            worth

theorem Processed.settled
    {selection : Option CoinSelection}
    {maxed : Option Nat}
    (processed :
      Processed template changeRecipient selection maxed inputs shared
        result) :
    Settled (template.funded inputs) changeRecipient result :=
  placeDrain_settled processed.places processed.shares processed.placed

/-- The position of the first maxed output. -/
def TxBuilder.maxed (builder : TxBuilder R) : Option Nat :=
  builder.txTemplate.outputs.findIdx? isMax

/-- The inputs a builder spends: the given ones, or the ones picked. -/
def TxBuilder.funding (builder : TxBuilder R) : List Coin :=
  match
    fundInputs builder.txTemplate (valueTotal builder.txTemplate.outputs)
      builder.maxed builder.selection
  with
  | .ok inputs => inputs
  | .error _ => []

/-- The template of a builder with the inputs it spends. -/
def TxBuilder.fundedTemplate (builder : TxBuilder R) : TxTemplate R :=
  builder.txTemplate.funded builder.funding

theorem Maxed.findIdx
    {maxed : Option Nat}
    (found : Maxed outputs maxed) :
    outputs.findIdx? isMax = maxed := by
  cases found with
  | free fixed => exact List.findIdx?_eq_none_iff.mpr fixed
  | single before output after same drains fixedBefore fixedAfter =>
      have misses := List.findIdx?_eq_none_iff.mpr fixedBefore
      rw [same, List.findIdx?_append, misses, List.findIdx?_cons,
        if_pos drains]
      simp

/-- What a simulation without an error tells of its builder. -/
structure Simulated
    (builder : TxBuilder R)
    (result : TransactionResult R) : Prop where
  sized : Sized builder.fundedTemplate (some builder.changeProvider)
  proportion :
    ProportionFits builder.funding builder.txTemplate.outputs 10
  settled :
    Settled builder.fundedTemplate (some builder.changeProvider) result

theorem TxBuilder.simulated
    (simulated : builder.simulate = .ok result)
    (clean : result.error = none) :
    Simulated builder result := by
  obtain ⟨maxed, inputs, shared, processed⟩ :=
    processTransaction_processed simulated clean
  have place : builder.maxed = maxed := processed.places.findIdx
  have funds : builder.funding = inputs := by
    rw [TxBuilder.funding, place, processed.funds]
  subst funds
  exact ⟨processed.sized, processed.proportion, processed.settled⟩

theorem TxBuilder.generate_of_simulated
    (simulated : builder.simulate = .ok result)
    (clean : result.error = none)
    (miniscript : Miniscript)
    (shuffle : Shuffle Coin × Shuffle R) :
    builder.generate miniscript shuffle =
      result.txTemplate.finalize miniscript (builder.changeRecipient result)
        (some shuffle) builder.spProvider (network builder.changeProvider)
        builder.maxFeePercent builder.maxFeeAmount false := by
  unfold TxBuilder.simulate at simulated
  rw [TxBuilder.generate, simulated, ok_bind, clean]

theorem TxBuilder.simulate_of_generate
    {shuffle : Shuffle Coin × Shuffle R}
    {psbt : Psbt}
    (built : builder.generate miniscript shuffle = .ok psbt) :
    ∃ result, builder.simulate = .ok result ∧ result.error = none := by
  obtain ⟨result, simulated, finalized⟩ := bind_eq_ok.mp built
  refine ⟨result, simulated, ?_⟩
  cases clean : result.error with
  | none => rfl
  | some error =>
      rw [clean] at finalized
      cases finalized

/-- A stop that is none of the checks': a panic, or an error of the silent
payments or of the PSBT. -/
def Stop.Assembling (stop : Stop) : Prop :=
  (∃ cause, stop = .panic cause) ∨ stop = .err .spPartialSecret ∨
    stop = .err .input ∨ stop = .err .output

theorem mapM_error
    {α β : Type}
    {f : α → Outcome β}
    {bad : Stop → Prop}
    (each : ∀ item stop, f item = .error stop → bad stop)
    {items : List α}
    (stopped : items.mapM f = .error stop) :
    bad stop := by
  induction items with
  | nil => cases stopped
  | cons item rest ih =>
      rw [List.mapM_cons] at stopped
      rcases bind_eq_error.mp stopped with failed | ⟨value, _, stopped⟩
      · exact each item stop failed
      rcases bind_eq_error.mp stopped with failed | ⟨values, _, stopped⟩
      · exact ih failed
      · cases stopped

theorem deriveScripts_error
    (stopped : deriveScripts spProvider inputs outputs = .error stop) :
    stop.Assembling := by
  cases spProvider with
  | none => cases stopped
  | some spProvider =>
      rcases bind_eq_error.mp stopped with failed | ⟨secret, _, stopped⟩
      · unfold computeSpPartialSecret at failed
        split at failed
        · split at failed
          · cases failed
          · cases failed
            exact .inr (.inl rfl)
        · cases failed
      · cases secret with
        | none => cases stopped
        | some secret =>
            rcases bind_eq_error.mp stopped with failed | ⟨_, _, stopped⟩
            · exact .inl (liftPanic_error failed)
            · cases stopped

theorem createOutput_error
    {context : FinalizationContext}
    (stopped : createOutput context recipient = .error stop) :
    stop.Assembling := by
  rcases bind_eq_error.mp stopped with failed | ⟨_, _, stopped⟩
  · exact .inl (liftPanic_error failed)
  · cases stopped

theorem describeInput_error
    {coin : Coin}
    (stopped : describeInput miniscript coin = .error stop) :
    stop.Assembling := by
  unfold describeInput at stopped
  split at stopped
  · cases stopped
  · cases stopped
    exact .inr (.inr (.inl rfl))

theorem describeOutput_error
    (stopped : describeOutput miniscript recipient = .error stop) :
    stop.Assembling := by
  unfold describeOutput at stopped
  split at stopped
  · cases stopped
    exact .inr (.inr (.inr rfl))
  · rcases bind_eq_error.mp stopped with failed | ⟨info, _, stopped⟩
    · exact .inl (liftPanic_error failed)
    · cases info <;> cases stopped

theorem assemble_error
    {network : Network}
    (stopped :
      assemble miniscript spProvider network inputs outputs =
        .error stop) :
    stop.Assembling := by
  rcases bind_eq_error.mp stopped with failed | ⟨_, _, stopped⟩
  · exact deriveScripts_error failed
  rcases bind_eq_error.mp stopped with failed | ⟨_, _, stopped⟩
  · exact mapM_error (fun _ _ => createOutput_error) failed
  rcases bind_eq_error.mp stopped with failed | ⟨_, _, stopped⟩
  · exact mapM_error (fun _ _ => describeInput_error) failed
  rcases bind_eq_error.mp stopped with failed | ⟨_, _, stopped⟩
  · exact mapM_error (fun _ _ => describeOutput_error) failed
  · cases stopped

section Maxed

variable [LawfulRecipient R]

theorem weightOf_modify
    (inputs : List Coin)
    (outputs : List R)
    (pos : Nat)
    (wanted : Amount) :
    weightOf inputs (outputs.modify pos (setAmount wanted)) =
      weightOf inputs outputs := by
  have weights :
      (outputs.modify pos (setAmount wanted)).map outputWeight =
        outputs.map outputWeight := by
    induction outputs generalizing pos with
    | nil => simp
    | cons output rest ih =>
        cases pos with
        | zero => simp
        | succ pos => simp [ih]
  rw [weightOf, weightOf, weights]

theorem any_isChange_modify
    (outputs : List R)
    (pos : Nat)
    (wanted : Amount) :
    (outputs.modify pos (setAmount wanted)).any isChange =
      outputs.any isChange := by
  induction outputs generalizing pos with
  | nil => simp
  | cons output rest ih =>
      cases pos with
      | zero => simp
      | succ pos => simp [ih]

theorem outputAmount_setMax
    (value : Nat)
    (output : R) :
    outputAmount (setAmount (.max (some value)) output) = value := by
  simp [outputAmount]

theorem outputAmount_setValue
    (value : Nat)
    (output : R) :
    outputAmount (setAmount (.value value) output) = value := by
  simp [outputAmount]

theorem amountTotal_modify
    {outputs before after : List R}
    {output : R}
    (same : outputs = before ++ output :: after)
    (drains : isMax output = true)
    (fixedBefore : ∀ other ∈ before, isMax other = false)
    (fixedAfter : ∀ other ∈ after, isMax other = false)
    (value : Nat) :
    amountTotal
        (outputs.modify before.length (setAmount (.max (some value)))) =
      valueTotal outputs + value := by
  rw [same, modify_split, amountTotal_append, amountTotal_cons,
    outputAmount_setMax, amountTotal_of_fixed fixedBefore,
    amountTotal_of_fixed fixedAfter, valueTotal_append, valueTotal_cons,
    valueOf_of_max drains]
  omega

end Maxed

theorem any_isChange_perm
    {outputs outputs' : List R}
    (same : outputs'.Perm outputs) :
    outputs'.any isChange = outputs.any isChange := by
  rw [Bool.eq_iff_iff, List.any_eq_true, List.any_eq_true]
  constructor
  · rintro ⟨output, member, change⟩
    exact ⟨output, same.mem_iff.mp member, change⟩
  · rintro ⟨output, member, change⟩
    exact ⟨output, same.mem_iff.mpr member, change⟩

variable (template : TxTemplate R)

theorem finalize_of_prepared
    {template : TxTemplate R}
    {change : Option R}
    (prepared : template.prepareOutputs change = .ok outputs)
    (miniscript : Miniscript)
    (shuffle : Shuffle Coin × Shuffle R)
    (spProvider : Option (SpPartialSecretProvider R))
    (network : Network)
    (maxFeePercent maxFeeAmount : Nat) :
    template.finalize miniscript change (some shuffle) spProvider network
        maxFeePercent maxFeeAmount false = (do
      checkMissingChange (shuffle.1.apply template.inputs)
        (shuffle.2.apply outputs) template.fees template.dustThreshold
      checkDisproportionateFee (shuffle.1.apply template.inputs)
        (shuffle.2.apply outputs) maxFeePercent maxFeeAmount
      assemble miniscript spProvider network
        (shuffle.1.apply template.inputs) (shuffle.2.apply outputs)) := by
  rw [TxTemplate.finalize, prepared, ok_bind]
  simp only [shuffleMaybe, runChecks, Bool.false_eq_true, if_false,
    bind_assoc]

theorem prepareOutputs_none :
    template.prepareOutputs none = .ok template.outputs :=
  rfl

theorem prepareOutputs_some
    (change : R) :
    (isChange change = false ∧
      template.prepareOutputs (some change) = .error (.err .notChange)) ∨
    (template.outputs.any isChange = true ∧
      template.prepareOutputs (some change) =
        .error (.err .changeAlreadyAdded)) ∨
    (isChange change = true ∧ template.outputs.any isChange = false ∧
      template.prepareOutputs (some change) =
        .ok (template.outputs ++ [change])) := by
  cases changes : isChange change with
  | false =>
      left
      refine ⟨rfl, ?_⟩
      simp only [TxTemplate.prepareOutputs, changes]
      rfl
  | true =>
      right
      cases already : template.outputs.any isChange with
      | true =>
          left
          refine ⟨rfl, ?_⟩
          simp only [TxTemplate.prepareOutputs, changes, already]
          rfl
      | false =>
          right
          refine ⟨rfl, rfl, ?_⟩
          simp only [TxTemplate.prepareOutputs, changes, already]
          rfl

end Settled

end Bwk.Tx
