import Bwk.TxRecipient

namespace Bwk.Tx

open RecipientProvider

/-!
# Processing a template

`process_transaction` of `tx/src/transaction.rs`: find the maxed output, fund
the template, share the allowance out, and warn of a fee out of proportion.
-/

section Outputs

variable {R : Type} [RecipientProvider R]

/-- Add up the fixed values and find the one maxed output. -/
def outputsTotal :
    List R → Nat → Nat → Option Nat → Outcome (Nat × Option Nat)
  | [], _, total, maxed => return (total, maxed)
  | output :: rest, pos, total, maxed =>
      match amount output with
      | .value sat => do
          let total ← addU64 total sat
          outputsTotal rest (pos + 1) total maxed
      | .max _ =>
          if maxed.isSome then
            throw (.err .singleMax)
          else
            outputsTotal rest (pos + 1) total (some pos)
      | .anchor => outputsTotal rest (pos + 1) total maxed

/-- An output gets what the others leave. -/
def isMax (output : R) : Bool :=
  match amount output with
  | .max _ => true
  | _ => false

def valueOf (output : R) : Nat :=
  match amount output with
  | .value sat => sat
  | _ => 0

def valueTotal (outputs : List R) : Nat :=
  (outputs.map valueOf).sum

/-- The position of the one maxed output, or that there is none. -/
inductive Maxed (outputs : List R) : Option Nat → Prop where
  | free
      (fixed : ∀ output ∈ outputs, isMax output = false) :
      Maxed outputs none
  | single
      (before : List R)
      (output : R)
      (after : List R)
      (same : outputs = before ++ output :: after)
      (drains : isMax output = true)
      (fixedBefore : ∀ other ∈ before, isMax other = false)
      (fixedAfter : ∀ other ∈ after, isMax other = false) :
      Maxed outputs (some before.length)

@[simp]
theorem valueTotal_cons
    (output : R)
    (rest : List R) :
    valueTotal (output :: rest) = valueOf output + valueTotal rest := by
  simp [valueTotal]

@[simp]
theorem valueTotal_append
    (left right : List R) :
    valueTotal (left ++ right) = valueTotal left + valueTotal right := by
  simp [valueTotal]

variable {output : R} {outputs : List R} {maxed : Option Nat} {total : Nat}

theorem outputAmount_of_fixed
    (fixed : isMax output = false) :
    outputAmount output = valueOf output := by
  unfold isMax at fixed
  unfold outputAmount valueOf
  cases paid : amount output with
  | value sat => rfl
  | max sat => simp [paid] at fixed
  | anchor => rfl

theorem amountTotal_of_fixed
    (fixed : ∀ output ∈ outputs, isMax output = false) :
    amountTotal outputs = valueTotal outputs := by
  have counted :
      outputs.map outputAmount = outputs.map valueOf :=
    List.map_congr_left
      (fun output member => outputAmount_of_fixed (fixed output member))
  rw [amountTotal, valueTotal, counted]

theorem valueOf_of_max
    (drains : isMax output = true) :
    valueOf output = 0 := by
  unfold isMax at drains
  unfold valueOf
  cases paid : amount output with
  | value sat => simp [paid] at drains
  | max sat => rfl
  | anchor => rfl

theorem outputsTotal_fixed
    {before : List R}
    (fixed : ∀ output ∈ before, isMax output = false)
    (after : List R)
    (pos : Nat)
    (fits : total + valueTotal before ≤ u64Max)
    (maxed : Option Nat) :
    outputsTotal (before ++ after) pos total maxed =
      outputsTotal after (pos + before.length)
        (total + valueTotal before) maxed := by
  induction before generalizing pos total with
  | nil => rfl
  | cons output rest ih =>
      have restFixed : ∀ other ∈ rest, isMax other = false :=
        fun other member => fixed other (List.mem_cons_of_mem _ member)
      have headFixed := fixed output List.mem_cons_self
      rw [valueTotal_cons, ← Nat.add_assoc] at fits
      have later :=
        ih restFixed (pos + 1) fits
      have place : pos + (output :: rest).length = pos + 1 + rest.length := by
        rw [List.length_cons]
        omega
      rw [List.cons_append, outputsTotal, valueTotal_cons, place,
        ← Nat.add_assoc, ← later]
      unfold isMax at headFixed
      cases paid : amount output with
      | value sat =>
          have head : valueOf output = sat := by
            simp [valueOf, paid]
          have added : (addU64 total sat : Outcome Nat) = .ok (total + sat) :=
            fitU64_of_le (by omega)
          simp only [added, ok_bind, head]
      | max sat => simp [paid] at headFixed
      | anchor =>
          have head : valueOf output = 0 := by
            simp [valueOf, paid]
          simp only [head, Nat.add_zero]

theorem outputsTotal_of_maxed
    (fits : valueTotal outputs ≤ u64Max)
    (found : Maxed outputs maxed) :
    outputsTotal outputs 0 0 none = .ok (valueTotal outputs, maxed) := by
  cases found with
  | free fixed =>
      have ends :=
        outputsTotal_fixed fixed [] 0
          (show 0 + valueTotal outputs ≤ u64Max by omega) none
      rw [List.append_nil, Nat.zero_add, Nat.zero_add] at ends
      exact ends
  | single before output after same drains fixedBefore fixedAfter =>
      have zero := valueOf_of_max drains
      rw [same, valueTotal_append, valueTotal_cons, zero, Nat.zero_add]
        at fits
      have first :=
        outputsTotal_fixed fixedBefore (output :: after) 0
          (show 0 + valueTotal before ≤ u64Max by omega) none
      have last :=
        outputsTotal_fixed fixedAfter [] (0 + before.length + 1)
          (show 0 + valueTotal before + valueTotal after ≤ u64Max by omega)
          (some (0 + before.length))
      rw [List.append_nil] at last
      have head :
          outputsTotal (output :: after) (0 + before.length)
              (0 + valueTotal before) none =
            outputsTotal after (0 + before.length + 1)
              (0 + valueTotal before) (some (0 + before.length)) := by
        unfold isMax at drains
        cases paid : amount output with
        | value sat => simp [paid] at drains
        | max sat => simp [outputsTotal, paid]
        | anchor => simp [paid] at drains
      rw [same, first, head, last, outputsTotal, valueTotal_append,
        valueTotal_cons, zero]
      simp only [Nat.zero_add]
      rfl

theorem outputsTotal_sound
    {pos total : Nat}
    {total' : Nat}
    {maxed' : Option Nat}
    (bounded : total ≤ u64Max)
    (ran :
      outputsTotal outputs pos total maxed = .ok (total', maxed')) :
    total' = total + valueTotal outputs ∧ total' ≤ u64Max ∧
      ((maxed' = maxed ∧ ∀ output ∈ outputs, isMax output = false) ∨
        (maxed = none ∧
          ∃ before output after, outputs = before ++ output :: after ∧
            isMax output = true ∧
            (∀ other ∈ before, isMax other = false) ∧
            (∀ other ∈ after, isMax other = false) ∧
            maxed' = some (pos + before.length))) := by
  induction outputs generalizing pos total maxed with
  | nil =>
      cases ran
      refine ⟨rfl, bounded, .inl ⟨rfl, ?_⟩⟩
      intro output member
      cases member
  | cons output rest ih =>
      rw [outputsTotal] at ran
      -- a fixed output only moves the position of a later maxed one
      have onward :
          ∀ {next : Nat},
            isMax output = false →
            next = total + valueOf output →
            next ≤ u64Max →
            outputsTotal rest (pos + 1) next maxed = .ok (total', maxed') →
            total' = total + valueTotal (output :: rest) ∧
              total' ≤ u64Max ∧
              ((maxed' = maxed ∧
                  ∀ other ∈ output :: rest, isMax other = false) ∨
                (maxed = none ∧
                  ∃ before head after,
                    output :: rest = before ++ head :: after ∧
                    isMax head = true ∧
                    (∀ other ∈ before, isMax other = false) ∧
                    (∀ other ∈ after, isMax other = false) ∧
                    maxed' = some (pos + before.length))) := by
        intro next fixed counted nextFits later
        obtain ⟨sum, fits, places⟩ := ih nextFits later
        refine ⟨?_, fits, ?_⟩
        · rw [sum, counted, valueTotal_cons, Nat.add_assoc]
        rcases places with
          ⟨same, free⟩ | ⟨unset, before, head, after, split, drains,
            fixedBefore, fixedAfter, place⟩
        · left
          refine ⟨same, ?_⟩
          intro other member
          rcases List.mem_cons.mp member with rfl | member
          · exact fixed
          · exact free other member
        · right
          refine ⟨unset, output :: before, head, after, ?_, drains, ?_,
            fixedAfter, ?_⟩
          · rw [split, List.cons_append]
          · intro other member
            rcases List.mem_cons.mp member with rfl | member
            · exact fixed
            · exact fixedBefore other member
          · rw [place, List.length_cons, Nat.add_assoc, Nat.add_comm 1]
      cases paid : amount output with
      | value sat =>
          simp only [paid, bind_eq_ok, addU64_eq_ok] at ran
          obtain ⟨next, ⟨fits, rfl⟩, later⟩ := ran
          exact onward (by simp [isMax, paid]) (by simp [valueOf, paid]) fits
            later
      | max sat =>
          rw [paid] at ran
          cases maxed with
          | some other => cases ran
          | none =>
              obtain ⟨sum, fits, places⟩ := ih bounded ran
              have zero : valueOf output = 0 := by
                simp [valueOf, paid]
              refine ⟨by rw [sum, valueTotal_cons, zero, Nat.zero_add],
                fits, ?_⟩
              rcases places with ⟨same, free⟩ | ⟨impossible, _⟩
              · right
                refine ⟨rfl, [], output, rest, rfl, ?_, ?_, free, same⟩
                · simp [isMax, paid]
                · intro other member
                  cases member
              · cases impossible
      | anchor =>
          rw [paid] at ran
          exact onward (by simp [isMax, paid]) (by simp [valueOf, paid])
            bounded ran

theorem outputsTotal_ok
    (ran : outputsTotal outputs 0 0 none = .ok (total, maxed)) :
    total = valueTotal outputs ∧ valueTotal outputs ≤ u64Max ∧
      Maxed outputs maxed := by
  obtain ⟨sum, fits, places⟩ := outputsTotal_sound (Nat.zero_le _) ran
  rw [Nat.zero_add] at sum
  subst sum
  refine ⟨rfl, fits, ?_⟩
  rcases places with
    ⟨rfl, free⟩ | ⟨_, before, output, after, same, drains, fixedBefore,
      fixedAfter, rfl⟩
  · exact .free free
  · rw [Nat.zero_add]
    exact .single before output after same drains fixedBefore fixedAfter

end Outputs

/-- A strategy that picks coins worth a target at a rate, unless it panics. -/
abbrev CoinSelector : Type :=
  List Coin → Nat → Nat → Option (List Coin)

def CoinSelector.select
    (selector : CoinSelector)
    (candidates : List Coin)
    (target rate : Nat) : Outcome (List Coin) :=
  match selector candidates target rate with
  | some selected => .ok selected
  | none => .error (.panic .selector)

/-- How a template without inputs is funded: a strategy, and the coins that
can be spent. -/
structure CoinSelection where
  selector : CoinSelector
  spendableCoins : List Coin

/-- A result, with an error handed back rather than passed on. -/
def attempt {α : Type} : Outcome α → Outcome (Except Error α)
  | .ok value => .ok (.ok value)
  | .error (.err error) => .ok (.error error)
  | .error (.panic cause) => .error (.panic cause)

section Processing

variable {R : Type} [RecipientProvider R]

/-- The coins picked for a template: all of them for a maxed output, else
enough for the outputs and the fee of everything but the inputs. -/
def pickInputs
    (template : TxTemplate R)
    (total : Nat)
    (maxed : Option Nat)
    (selection : CoinSelection) : Outcome (List Coin) :=
  if maxed.isSome then
    return selection.spendableCoins
  else
    match template.fees with
    | .sats _ => throw (.err .coinSelectionRequiresFeerate)
    | .milliSatsVb rate => do
        let weight ← txEstimatedWeight template
        let baseFee ← rateFee weight rate
        let target ← addU64 total baseFee
        selection.selector.select selection.spendableCoins target rate

def selectInputs
    (template : TxTemplate R)
    (total : Nat)
    (maxed : Option Nat)
    (selection : Option CoinSelection) : Outcome (List Coin) :=
  match selection with
  | none => throw (.err .noInputs)
  | some selection => do
      let selected ← pickInputs template total maxed selection
      if selected.isEmpty then
        throw (.err .coinSelection)
      else
        return selected

/-- The inputs of a template, picked where it has none. -/
def fundInputs
    (template : TxTemplate R)
    (total : Nat)
    (maxed : Option Nat)
    (selection : Option CoinSelection) : Outcome (List Coin) :=
  if template.inputs.isEmpty then
    selectInputs template total maxed selection
  else
    return template.inputs

/-- What a simulation reports. -/
structure TransactionResult (R : Type) where
  txTemplate : TxTemplate R
  change : Option Nat
  fees : Option Nat
  warnings : List Warning
  error : Option Error

namespace TransactionResult

/-- Nothing to report yet. -/
def fromTemplate (template : TxTemplate R) : TransactionResult R :=
  ⟨template, none, none, [], none⟩

/-- The template cannot be processed. -/
def failed
    (template : TxTemplate R)
    (error : Error) : TransactionResult R :=
  { fromTemplate template with error := some error }

end TransactionResult

def weightWithChange
    (weight : Nat)
    (changeRecipient : Option R) : Outcome Nat :=
  match changeRecipient with
  | some recipient => addU64 weight (outputWeight recipient)
  | none => return weight

/-- What a simulation warns of a fee with: ten percent and two million
satoshis. -/
def disproportionWarnings
    (template : TxTemplate R) : Outcome (List Warning) := do
  let checked ←
    attempt
      (checkDisproportionateFee template.inputs template.outputs 10 2000000)
  match checked with
  | .ok () => return []
  | .error error => return error.toWarning.toList

/-- Put what `process_fees` shared out into the result. -/
def placeDrain
    (result : TransactionResult R)
    (maxed max change : Option Nat) : Outcome (TransactionResult R) :=
  match maxed, max, change with
  | some pos, some value, none =>
      return { result with
        txTemplate := { result.txTemplate with
          outputs :=
            result.txTemplate.outputs.modify pos
              (setAmount (.max (some value))) } }
  | none, none, some change =>
      return { result with change := some change }
  | none, none, none => return result
  | _, _, _ => throw (.panic .unreachable)

/-- Process a template whose inputs are known. -/
def settleFees
    (template : TxTemplate R)
    (total : Nat)
    (maxed : Option Nat)
    (changeRecipient : Option R) : Outcome (TransactionResult R) := do
  let inputsTotal ← sumU64 (template.inputs.map Coin.value)
  let weightWoChange ← txEstimatedWeight template
  let weightWith ← weightWithChange weightWoChange changeRecipient
  let drain := if maxed.isSome then Drain.max else Drain.change
  let shared ←
    processFees template.fees weightWoChange weightWith inputsTotal total
      drain template.dustThreshold
  match shared.error with
  | some error =>
      return { TransactionResult.failed template error with
        warnings := shared.warnings }
  | none =>
      let disproportion ← disproportionWarnings template
      placeDrain
        { TransactionResult.fromTemplate template with
          fees := shared.fees
          warnings := shared.warnings ++ disproportion }
        maxed shared.max shared.change

def processTransaction
    (template : TxTemplate R)
    (changeRecipient : Option R)
    (selection : Option CoinSelection) : Outcome (TransactionResult R) :=
  if template.fees.isNull then
    return .failed template .feesNull
  else do
    let scanned ← attempt (outputsTotal template.outputs 0 0 none)
    match scanned with
    | .error error => return .failed template error
    | .ok (total, maxed) =>
        let funded ← attempt (fundInputs template total maxed selection)
        match funded with
        | .error error => return .failed template error
        | .ok inputs =>
            settleFees { template with inputs := inputs } total maxed
              changeRecipient

variable {α : Type} {template : TxTemplate R} {outcome : Outcome α}
variable {result : TransactionResult R}

@[simp]
theorem attempt_eq_ok
    {value : α} :
    attempt outcome = .ok (.ok value) ↔ outcome = .ok value := by
  cases outcome with
  | ok other => simp [attempt]
  | error stop => cases stop <;> simp [attempt]

@[simp]
theorem attempt_eq_panic
    {stop : Stop} :
    attempt outcome = .error stop ↔
      ∃ cause, stop = .panic cause ∧ outcome = .error (.panic cause) := by
  cases outcome with
  | ok other => simp [attempt]
  | error other =>
      cases other with
      | err error => simp [attempt]
      | panic cause =>
          simp only [attempt, Except.error.injEq]
          constructor
          · rintro rfl
            exact ⟨cause, rfl, rfl⟩
          · rintro ⟨other, rfl, same⟩
            cases same
            rfl

def fullWeight
    (template : TxTemplate R)
    (changeRecipient : Option R) : Nat :=
  weightOf template.inputs template.outputs +
    (changeRecipient.map outputWeight).getD 0

def TxTemplate.feeWoChange (template : TxTemplate R) : Nat :=
  template.fees.of (weightOf template.inputs template.outputs)

def TxTemplate.feeWithChange
    (template : TxTemplate R)
    (changeRecipient : Option R) : Nat :=
  template.fees.of (fullWeight template changeRecipient)

theorem weightOf_le_fullWeight
    (template : TxTemplate R)
    (changeRecipient : Option R) :
    weightOf template.inputs template.outputs ≤
      fullWeight template changeRecipient :=
  Nat.le_add_right _ _

theorem feeWoChange_le
    (template : TxTemplate R)
    (changeRecipient : Option R) :
    template.feeWoChange ≤ template.feeWithChange changeRecipient :=
  template.fees.of_mono (weightOf_le_fullWeight template changeRecipient)

/-- The sums, weights and fees of a template fit. -/
structure Sized
    (template : TxTemplate R)
    (changeRecipient : Option R) : Prop where
  inputsFit : coinTotal template.inputs ≤ u64Max
  weightFits : fullWeight template changeRecipient ≤ u64Max
  feeFits : template.fees.Fits (fullWeight template changeRecipient)

/-- The drain of a template with or without a maxed output. -/
def drainOf (maxed : Option Nat) : Drain :=
  if maxed.isSome then .max else .change

/-- What `process_fees` shares out for a template. -/
def Shares
    (template : TxTemplate R)
    (total : Nat)
    (maxed : Option Nat)
    (changeRecipient : Option R)
    (shared : FeeResult) : Prop :=
  Shared template.fees
    (weightOf template.inputs template.outputs)
    (fullWeight template changeRecipient)
    (coinTotal template.inputs) total (drainOf maxed)
    template.dustThreshold shared

theorem weightWithChange_eq
    (template : TxTemplate R)
    (changeRecipient : Option R)
    {weight : Nat}
    (same : weight = weightOf template.inputs template.outputs)
    (fits : weight ≤ u64Max) :
    weightWithChange weight changeRecipient =
      fitU64 (fullWeight template changeRecipient) := by
  subst same
  cases changeRecipient with
  | some recipient => rfl
  | none =>
      simp only [weightWithChange, fullWeight, Option.map_none,
        Option.getD_none, Nat.add_zero, fitU64_of_le fits]
      rfl

def proportionWarnings (template : TxTemplate R) : List Warning :=
  if
    Disproportionate
      (coinTotal template.inputs - amountTotal template.outputs)
      (paidTotal template.outputs) 10 2000000
  then
    [.disproportionateFees
      (coinTotal template.inputs - amountTotal template.outputs)
      (paidTotal template.outputs)]
  else
    []

theorem disproportionWarnings_of_fits
    (fits : ProportionFits template.inputs template.outputs 10) :
    disproportionWarnings template = .ok (proportionWarnings template) := by
  rw [disproportionWarnings,
    checkDisproportionateFee_of_fits fits 2000000, proportionWarnings]
  by_cases refused :
      Disproportionate
        (coinTotal template.inputs - amountTotal template.outputs)
        (paidTotal template.outputs) 10 2000000
  · rw [if_pos refused, if_pos refused]
    rfl
  · rw [if_neg refused, if_neg refused]
    rfl

theorem disproportionWarnings_fits
    {warnings : List Warning}
    (ran : disproportionWarnings template = .ok warnings) :
    ProportionFits template.inputs template.outputs 10 ∧
      warnings = proportionWarnings template := by
  have fits : ProportionFits template.inputs template.outputs 10 := by
    apply checkDisproportionateFee_fits
    intro overflowed
    rw [disproportionWarnings, overflowed] at ran
    cases ran
  refine ⟨fits, ?_⟩
  rw [disproportionWarnings_of_fits fits] at ran
  cases ran
  rfl

variable {changeRecipient : Option R}

theorem settleFees_of_sized
    (sized : Sized template changeRecipient)
    (total : Nat)
    (maxed : Option Nat) :
    settleFees template total maxed changeRecipient = (do
      let shared ←
        processFees template.fees
          (weightOf template.inputs template.outputs)
          (fullWeight template changeRecipient)
          (coinTotal template.inputs) total (drainOf maxed)
          template.dustThreshold
      match shared.error with
      | some error =>
          return { TransactionResult.failed template error with
            warnings := shared.warnings }
      | none =>
          let disproportion ← disproportionWarnings template
          placeDrain
            { TransactionResult.fromTemplate template with
              fees := shared.fees
              warnings := shared.warnings ++ disproportion }
            maxed shared.max shared.change) := by
  have weightFits :=
    le_trans (weightOf_le_fullWeight template changeRecipient)
      sized.weightFits
  have sum :
      (sumU64 (template.inputs.map Coin.value) : Outcome Nat) =
        .ok (coinTotal template.inputs) :=
    (sumU64_eq _).trans (fitU64_of_le sized.inputsFit)
  have weight :
      txEstimatedWeight template =
        .ok (weightOf template.inputs template.outputs) :=
    (txEstimatedWeight_eq template).trans (fitU64_of_le weightFits)
  have heavier :
      weightWithChange (weightOf template.inputs template.outputs)
          changeRecipient =
        .ok (fullWeight template changeRecipient) :=
    (weightWithChange_eq template changeRecipient rfl weightFits).trans
      (fitU64_of_le sized.weightFits)
  simp only [settleFees, sum, weight, heavier, ok_bind, drainOf]

theorem placeDrain_error
    {result placed : TransactionResult R}
    {maxed max change : Option Nat}
    (ran : placeDrain result maxed max change = .ok placed) :
    placed.error = result.error := by
  unfold placeDrain at ran
  split at ran <;> cases ran <;> rfl

theorem settleFees_ok
    {total : Nat}
    {maxed : Option Nat}
    (ran : settleFees template total maxed changeRecipient = .ok result)
    (clean : result.error = none) :
    Sized template changeRecipient ∧
      ProportionFits template.inputs template.outputs 10 ∧
      ∃ shared, Shares template total maxed changeRecipient shared ∧
        placeDrain
          { TransactionResult.fromTemplate template with
            fees := shared.fees
            warnings :=
              shared.warnings ++ proportionWarnings template }
          maxed shared.max shared.change = .ok result := by
  simp only [settleFees, bind_eq_ok, sumU64_eq_ok, txEstimatedWeight_eq,
    fitU64_eq_ok] at ran
  obtain ⟨_, ⟨inputsFit, rfl⟩, _, ⟨lighterFits, rfl⟩, heavier, weighed,
    shared, sharing, settled⟩ := ran
  rw [weightWithChange_eq template changeRecipient rfl lighterFits,
    fitU64_eq_ok] at weighed
  obtain ⟨weightFits, rfl⟩ := weighed
  cases failed : shared.error with
  | some error =>
      rw [failed] at settled
      cases settled
      cases clean
  | none =>
      rw [failed] at settled
      simp only [bind_eq_ok] at settled
      obtain ⟨warnings, warned, placed⟩ := settled
      obtain ⟨proportion, rfl⟩ := disproportionWarnings_fits warned
      obtain ⟨feeFits, shares⟩ :=
        processFees_shared
          (weightOf_le_fullWeight template changeRecipient) sharing failed
      exact ⟨⟨inputsFit, weightFits, feeFits⟩, proportion, shared, shares,
        placed⟩

/-- What a simulation without an error has found. -/
structure Processed
    (template : TxTemplate R)
    (changeRecipient : Option R)
    (selection : Option CoinSelection)
    (maxed : Option Nat)
    (inputs : List Coin)
    (shared : FeeResult)
    (result : TransactionResult R) : Prop where
  paying : template.fees.isNull = false
  totalFits : valueTotal template.outputs ≤ u64Max
  places : Maxed template.outputs maxed
  funds :
    fundInputs template (valueTotal template.outputs) maxed selection =
      .ok inputs
  sized : Sized { template with inputs := inputs } changeRecipient
  proportion : ProportionFits inputs template.outputs 10
  shares :
    Shares { template with inputs := inputs } (valueTotal template.outputs)
      maxed changeRecipient shared
  placed :
    placeDrain
      { TransactionResult.fromTemplate { template with inputs := inputs } with
        fees := shared.fees
        warnings :=
          shared.warnings ++
            proportionWarnings { template with inputs := inputs } }
      maxed shared.max shared.change = .ok result

/-- A simulation without an error has funded the template and shared its
allowance out. -/
theorem processTransaction_processed
    {selection : Option CoinSelection}
    (ran :
      processTransaction template changeRecipient selection = .ok result)
    (clean : result.error = none) :
    ∃ maxed inputs shared,
      Processed template changeRecipient selection maxed inputs shared
        result := by
  unfold processTransaction at ran
  cases null : template.fees.isNull with
  | true =>
      rw [null, if_pos rfl] at ran
      cases ran
      cases clean
  | false =>
      simp only [null, Bool.false_eq_true, if_false, bind_eq_ok] at ran
      obtain ⟨scanned, scan, ran⟩ := ran
      cases scanned with
      | error error =>
          cases ran
          cases clean
      | ok found =>
          obtain ⟨total, maxed⟩ := found
          simp only [bind_eq_ok] at ran
          obtain ⟨funded, fund, ran⟩ := ran
          obtain ⟨rfl, totalFits, places⟩ :=
            outputsTotal_ok (attempt_eq_ok.mp scan)
          cases funded with
          | error error =>
              cases ran
              cases clean
          | ok inputs =>
              obtain ⟨sized, proportion, shared, shares, placed⟩ :=
                settleFees_ok ran clean
              exact ⟨maxed, inputs, shared, null, totalFits, places,
                attempt_eq_ok.mp fund, sized, proportion, shares, placed⟩

end Processing

end Bwk.Tx
