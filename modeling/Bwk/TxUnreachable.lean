import Bwk.TxProcess

namespace Bwk.Tx

open RecipientProvider

/-!
# The arm that is not unreachable

`process_transaction` ends in a match whose last arm is `unreachable!()`.  It
is reached exactly by a template with a maxed output whose remainder is, or
would become, dust.
-/

/-- An outcome is no `unreachable!()`. -/
def NeverUnreachable {α : Type} (outcome : Outcome α) : Prop :=
  outcome ≠ .error (.panic .unreachable)

namespace NeverUnreachable

theorem ok
    {α : Type}
    (value : α) :
    NeverUnreachable (.ok value) := by
  intro impossible
  cases impossible

theorem err
    {α : Type}
    (error : Error) :
    NeverUnreachable (.error (.err error) : Outcome α) := by
  intro impossible
  cases impossible

theorem bind
    {α β : Type}
    {first : Outcome α}
    {next : α → Outcome β}
    (firstNever : NeverUnreachable first)
    (nextNever :
      ∀ value, first = .ok value → NeverUnreachable (next value)) :
    NeverUnreachable (first >>= next) := by
  intro reached
  rcases bind_eq_error.mp reached with failed | ⟨value, returned, failed⟩
  · exact firstNever failed
  · exact nextNever value returned failed

theorem fitU64
    (exact : Nat) :
    NeverUnreachable (Bwk.fitU64 exact) := by
  intro reached
  unfold Bwk.fitU64 at reached
  split at reached <;> cases reached

theorem sumU64
    (values : List Nat) :
    NeverUnreachable (Bwk.sumU64 values) := by
  rw [sumU64_eq]
  exact fitU64 _

theorem attempt
    {α : Type}
    {outcome : Outcome α}
    (never : NeverUnreachable outcome) :
    NeverUnreachable (Tx.attempt outcome) := by
  intro reached
  obtain ⟨cause, same, panicked⟩ := attempt_eq_panic.mp reached
  cases same
  exact never panicked

end NeverUnreachable

section Unreachable

variable {R : Type} [RecipientProvider R]

theorem outputsTotal_never
    (outputs : List R)
    (pos total : Nat)
    (maxed : Option Nat) :
    NeverUnreachable (outputsTotal outputs pos total maxed) := by
  induction outputs generalizing pos total maxed with
  | nil => exact .ok _
  | cons output rest ih =>
      rw [outputsTotal]
      cases amount output with
      | value sat =>
          exact .bind (.fitU64 _) (fun next _ => ih (pos + 1) next maxed)
      | max sat =>
          cases maxed with
          | none => exact ih (pos + 1) total (some pos)
          | some other => exact .err .singleMax
      | anchor => exact ih (pos + 1) total maxed

theorem rateFee_never
    (weight rate : Nat) :
    NeverUnreachable (rateFee weight rate) :=
  .bind (.fitU64 _) (fun _ _ => .ok _)

theorem select_never
    (selector : CoinSelector)
    (candidates : List Coin)
    (target rate : Nat) :
    NeverUnreachable (selector.select candidates target rate) := by
  intro reached
  unfold CoinSelector.select at reached
  split at reached <;> cases reached

variable (template : TxTemplate R) {outputs : List R} (total : Nat)
variable {changeRecipient : Option R} (maxed : Option Nat)
variable (selection : Option CoinSelection)

theorem selectInputs_never :
    NeverUnreachable (selectInputs template total maxed selection) := by
  cases selection with
  | none => exact .err .noInputs
  | some selection =>
      refine .bind ?_ ?_
      · unfold pickInputs
        cases maxed with
        | some pos => exact .ok _
        | none =>
            cases template.fees with
            | sats fee => exact .err .coinSelectionRequiresFeerate
            | milliSatsVb rate =>
                refine .bind ?_ (fun weight _ => ?_)
                · rw [txEstimatedWeight_eq]
                  exact .fitU64 _
                refine .bind (rateFee_never weight rate) (fun baseFee _ => ?_)
                exact .bind (.fitU64 _)
                  (fun target _ =>
                    select_never selection.selector selection.spendableCoins
                      target rate)
      · intro selected _
        cases empty : selected.isEmpty with
        | true => exact .err .coinSelection
        | false => exact .ok _

theorem fundInputs_never :
    NeverUnreachable (fundInputs template total maxed selection) := by
  unfold fundInputs
  cases template.inputs.isEmpty with
  | true => exact selectInputs_never template total maxed selection
  | false => exact .ok _

theorem disproportionWarnings_never :
    NeverUnreachable (disproportionWarnings template) := by
  refine .bind (.attempt ?_) ?_
  · unfold checkDisproportionateFee
    refine .bind (.sumU64 _) (fun sumInputs _ => ?_)
    refine .bind (.sumU64 _) (fun sumOutputs _ => ?_)
    refine .bind (.sumU64 _) (fun paidOutputs _ => ?_)
    by_cases unpaid : paidOutputs = 0
    · rw [if_pos unpaid]
      exact .ok ()
    rw [if_neg unpaid]
    refine .bind (.fitU64 _) (fun share _ => ?_)
    by_cases refused :
        sumInputs - sumOutputs > share / 100 ∧
          sumInputs - sumOutputs > 2000000
    · rw [if_pos refused]
      exact .err _
    · rw [if_neg refused]
      exact .ok ()
  · intro checked _
    cases checked with
    | ok value => exact .ok _
    | error error => exact .ok _

theorem processFees_never
    {weightWoChange weightWithChange : Nat}
    (ordered : weightWoChange ≤ weightWithChange)
    (fees : Fees)
    (sumInputs sumOutputs : Nat)
    (drain : Drain)
    (dustThreshold : Nat) :
    NeverUnreachable
      (processFees fees weightWoChange weightWithChange sumInputs sumOutputs
        drain dustThreshold) := by
  rcases processFees_cases ordered
      (Eq.refl
        (processFees fees weightWoChange weightWithChange sumInputs
          sumOutputs drain dustThreshold)) with
    ⟨_, ran⟩ | ⟨_, _, ran⟩ | ⟨_, _, _, ran⟩ | ⟨_, _, _, ran⟩ |
      ⟨_, result, ran, _⟩
  · rw [ran]
    exact .ok _
  · rw [ran]
    intro impossible
    cases impossible
  · rw [ran]
    exact .ok _
  · rw [ran]
    intro impossible
    cases impossible
  · rw [ran]
    exact .ok _

/-- The remainder of a template is dust, or would be after paying for a change
output, so that it goes to the fee. -/
def RemainderDropped
    (template : TxTemplate R)
    (changeRecipient : Option R)
    (total : Nat) : Prop :=
  total + template.feeWoChange ≤ coinTotal template.inputs ∧
    (coinTotal template.inputs <
        total + template.feeWoChange + template.dustThreshold ∨
      (total + template.feeWithChange changeRecipient ≤
          coinTotal template.inputs ∧
        coinTotal template.inputs <
          total + template.feeWithChange changeRecipient +
            template.dustThreshold))

variable {template : TxTemplate R}

theorem placeDrain_reaches
    {total : Nat}
    {maxed : Option Nat}
    {shared : FeeResult}
    (shares : Shares template total maxed changeRecipient shared)
    {result : TransactionResult R}
    (reached :
      placeDrain result maxed shared.max shared.change =
        .error (.panic .unreachable)) :
    maxed.isSome = true ∧
      RemainderDropped template changeRecipient total := by
  have lighter := feeWoChange_le template changeRecipient
  cases maxed with
  | none =>
      cases shares with
      | underDust paid under => cases reached
      | createDust above paid dust => cases reached
      | settled worth => cases reached
  | some pos =>
      refine ⟨rfl, ?_⟩
      cases shares with
      | underDust paid under => exact ⟨paid, .inl under⟩
      | createDust above paid dust =>
          exact ⟨le_trans (Nat.le_add_right _ _) above, .inr ⟨paid, dust⟩⟩
      | settled worth => cases reached

/-- Settling reaches the arm where a maxed output's remainder is dropped. -/
theorem settleFees_reaches
    {total : Nat}
    {maxed : Option Nat} :
    settleFees template total maxed changeRecipient =
        .error (.panic .unreachable) ↔
      Sized template changeRecipient ∧
        ProportionFits template.inputs template.outputs 10 ∧
        maxed.isSome = true ∧
        RemainderDropped template changeRecipient total := by
  have ordered := weightOf_le_fullWeight template changeRecipient
  constructor
  · intro reached
    unfold settleFees at reached
    rcases bind_eq_error.mp reached with failed | ⟨_, summed, reached⟩
    · exact absurd failed (NeverUnreachable.sumU64 _)
    rw [sumU64_eq_ok] at summed
    obtain ⟨inputsFit, rfl⟩ := summed
    rcases bind_eq_error.mp reached with failed | ⟨_, weighed, reached⟩
    · rw [txEstimatedWeight_eq] at failed
      exact absurd failed (NeverUnreachable.fitU64 _)
    rw [txEstimatedWeight_eq, fitU64_eq_ok] at weighed
    obtain ⟨lighterFits, rfl⟩ := weighed
    rw [weightWithChange_eq template changeRecipient rfl lighterFits]
      at reached
    rcases bind_eq_error.mp reached with failed | ⟨_, weighed, reached⟩
    · exact absurd failed (NeverUnreachable.fitU64 _)
    rw [fitU64_eq_ok] at weighed
    obtain ⟨weightFits, rfl⟩ := weighed
    rcases bind_eq_error.mp reached with failed | ⟨shared, sharing, reached⟩
    · exact absurd failed (processFees_never ordered _ _ _ _ _)
    cases failed : shared.error with
    | some error =>
        rw [failed] at reached
        cases reached
    | none =>
        rw [failed] at reached
        rcases bind_eq_error.mp reached with warned | ⟨_, warned, reached⟩
        · exact absurd warned (disproportionWarnings_never template)
        obtain ⟨proportion, rfl⟩ := disproportionWarnings_fits warned
        obtain ⟨feeFits, shares⟩ := processFees_shared ordered sharing failed
        exact ⟨⟨inputsFit, weightFits, feeFits⟩, proportion,
          placeDrain_reaches shares reached⟩
  · rintro ⟨sized, proportion, drained, paid, dropped⟩
    obtain ⟨pos, rfl⟩ := Option.isSome_iff_exists.mp drained
    rw [settleFees_of_sized sized]
    -- what is dropped is dust already, or only after paying for change
    by_cases under :
        coinTotal template.inputs <
          total + template.feeWoChange + template.dustThreshold
    · rw [processFees_underDust ordered sized.feeFits paid under]
      simp only [ok_bind, FeeResult.spent_error,
        disproportionWarnings_of_fits proportion]
      rfl
    · rcases dropped with impossible | ⟨paidWith, dust⟩
      · exact absurd impossible under
      rw [processFees_createDust ordered sized.feeFits (not_lt.mp under)
        paidWith dust]
      simp only [ok_bind, FeeResult.spent_error,
        disproportionWarnings_of_fits proportion]
      rfl

/-- The inputs of a template with a maxed output: its own, or else every coin
that can be spent. -/
def maxInputs
    (template : TxTemplate R)
    (selection : Option CoinSelection) : List Coin :=
  if template.inputs.isEmpty then
    (selection.map CoinSelection.spendableCoins).getD []
  else
    template.inputs

/-- A template with one maxed output, funded and within the integers, whose
remainder goes to the fee. -/
structure DropsMax
    (template : TxTemplate R)
    (changeRecipient : Option R)
    (selection : Option CoinSelection) : Prop where
  paying : template.fees.isNull = false
  single : (template.outputs.filter isMax).length = 1
  funded : maxInputs template selection ≠ []
  totalFits : valueTotal template.outputs ≤ u64Max
  sized :
    Sized { template with inputs := maxInputs template selection }
      changeRecipient
  proportion :
    ProportionFits (maxInputs template selection) template.outputs 10
  dropped :
    RemainderDropped
      { template with inputs := maxInputs template selection }
      changeRecipient (valueTotal template.outputs)

theorem maxed_of_single
    (single : (outputs.filter isMax).length = 1) :
    ∃ pos, Maxed outputs (some pos) := by
  induction outputs with
  | nil => cases single
  | cons output rest ih =>
      by_cases drains : isMax output = true
      · have fixed : ∀ other ∈ rest, isMax other = false := by
          rw [List.filter_cons_of_pos drains, List.length_cons] at single
          have free : rest.filter isMax = [] :=
            List.eq_nil_of_length_eq_zero (by omega)
          intro other member
          have misses := List.filter_eq_nil_iff.mp free other member
          exact Bool.not_eq_true _ ▸ misses
        exact ⟨_, .single [] output rest rfl drains
          (fun other member => by cases member) fixed⟩
      · rw [List.filter_cons_of_neg drains] at single
        obtain ⟨pos, found⟩ := ih single
        cases found with
        | single before head after same headDrains fixedBefore fixedAfter =>
            refine ⟨_, .single (output :: before) head after ?_ headDrains ?_
              fixedAfter⟩
            · rw [same, List.cons_append]
            · intro other member
              rcases List.mem_cons.mp member with rfl | member
              · exact Bool.not_eq_true _ ▸ drains
              · exact fixedBefore other member

theorem single_of_maxed
    {pos : Nat}
    (found : Maxed outputs (some pos)) :
    (outputs.filter isMax).length = 1 := by
  cases found with
  | single before output after same drains fixedBefore fixedAfter =>
      have none : ∀ {others : List R},
          (∀ other ∈ others, isMax other = false) →
            others.filter isMax = [] := by
        intro others fixed
        exact List.filter_eq_nil_iff.mpr
          (fun other member drained => by
            rw [fixed other member] at drained
            cases drained)
      rw [same, List.filter_append, List.filter_cons_of_pos drains,
        none fixedBefore, none fixedAfter]
      rfl

theorem fundInputs_max
    {total pos : Nat}
    {selection : Option CoinSelection}
    {inputs : List Coin} :
    fundInputs template total (some pos) selection = .ok inputs ↔
      maxInputs template selection ≠ [] ∧
        inputs = maxInputs template selection := by
  unfold fundInputs maxInputs
  cases own : template.inputs.isEmpty with
  | true =>
      cases selection with
      | none => simp [selectInputs, throw, throwThe, MonadExceptOf.throw]
      | some selection =>
          cases coins : selection.spendableCoins with
          | nil =>
              simp [selectInputs, pickInputs, coins, pure, Except.pure,
                throw, throwThe, MonadExceptOf.throw]
          | cons coin rest =>
              simp only [if_true, selectInputs, pickInputs, Option.isSome_some,
                coins, pure, Except.pure, ok_bind, List.isEmpty_cons,
                Bool.false_eq_true, if_false, Except.ok.injEq,
                Option.map_some, Option.getD_some, ne_eq, reduceCtorEq,
                not_false_eq_true, true_and]
              exact eq_comm
  | false =>
      have some : template.inputs ≠ [] := by
        intro none
        rw [none] at own
        cases own
      simp only [Bool.false_eq_true, if_false, pure, Except.pure,
        Except.ok.injEq, ne_eq, some, not_false_eq_true, true_and]
      exact eq_comm

/-- Processing reaches its unreachable arm exactly on a template whose maxed
output's remainder goes to the fee. -/
theorem processTransaction_unreachable_iff
    (template : TxTemplate R)
    (changeRecipient : Option R)
    (selection : Option CoinSelection) :
    processTransaction template changeRecipient selection ≠
        .error (.panic .unreachable) ↔
      ¬ DropsMax template changeRecipient selection := by
  apply not_congr
  constructor
  · intro reached
    unfold processTransaction at reached
    cases null : template.fees.isNull with
    | true =>
        rw [null, if_pos rfl] at reached
        cases reached
    | false =>
        simp only [null, Bool.false_eq_true, if_false] at reached
        rcases bind_eq_error.mp reached with failed | ⟨scanned, scan, reached⟩
        · have never := outputsTotal_never template.outputs 0 0 none
          exact absurd failed (NeverUnreachable.attempt never)
        cases scanned with
        | error error => cases reached
        | ok found =>
            obtain ⟨total, maxed⟩ := found
            obtain ⟨rfl, totalFits, places⟩ :=
              outputsTotal_ok (attempt_eq_ok.mp scan)
            rcases bind_eq_error.mp reached with
              failed | ⟨funded, fund, reached⟩
            · have never :=
                fundInputs_never template (valueTotal template.outputs) maxed
                  selection
              exact absurd failed (NeverUnreachable.attempt never)
            cases funded with
            | error error => cases reached
            | ok inputs =>
                obtain ⟨sized, proportion, drained, dropped⟩ :=
                  settleFees_reaches.mp reached
                obtain ⟨pos, rfl⟩ := Option.isSome_iff_exists.mp drained
                obtain ⟨funded, rfl⟩ :=
                  fundInputs_max.mp (attempt_eq_ok.mp fund)
                exact ⟨null, single_of_maxed places, funded, totalFits, sized,
                  proportion, dropped⟩
  · intro drops
    obtain ⟨pos, places⟩ := maxed_of_single drops.single
    have scan := outputsTotal_of_maxed drops.totalFits places
    have fund :
        fundInputs template (valueTotal template.outputs) (some pos)
            selection =
          .ok (maxInputs template selection) :=
      fundInputs_max.mpr ⟨drops.funded, rfl⟩
    simp only [processTransaction, drops.paying, Bool.false_eq_true,
      if_false, attempt_eq_ok.mpr scan, ok_bind, attempt_eq_ok.mpr fund]
    exact settleFees_reaches.mpr
      ⟨drops.sized, drops.proportion, rfl, drops.dropped⟩

end Unreachable

open TxSample in
/-- Draining a coin of 5 000 satoshis: the fees are shared out without an
error, and the 4 889 left for the recipient are below dust. -/
theorem drained_dust_panics :
    processFees (.milliSatsVb 1000) 444 616 5000 0 .max dustAmount =
        .ok (.spent 5000 [.maxUnderDust 4889]) ∧
      processTransaction
          (template [coin 0 5000] [.max none] (.milliSatsVb 1000))
          (some (.provider changeProvider)) none =
        .error (.panic .unreachable) :=
  ⟨rfl, rfl⟩

end Bwk.Tx
