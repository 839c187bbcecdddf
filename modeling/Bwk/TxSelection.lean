import Bwk.TxProcess
import Bwk.OrderedMap

namespace Bwk.Tx

/-!
# The default coin selector

`tx/src/coin_selection.rs`: try every subset of the economical coins, keep one
for each amount it leaves after its own fees, and take the one that suits the
target best.  The selector finds coins exactly when some subset leaves the
target.
-/

/-- Coins that can be spent together. -/
structure Selection where
  spendableAmount : Nat
  fees : Nat
  outpoints : List OutPoint
  deriving Repr, DecidableEq

def perInputFixedWu : Nat := 164

def coinFee (coin : Coin) (feerate : Nat) : Outcome Nat := do
  let weight ← addU64 perInputFixedWu coin.satisfactionSize
  rateFee weight feerate

def Selection.add
    (feerate : Nat)
    (selection : Selection)
    (coin : Coin) : Outcome Selection := do
  let fee ← coinFee coin feerate
  let fees ← addU64 selection.fees fee
  let rest ← subU64 coin.value fee
  let spendableAmount ← addU64 selection.spendableAmount rest
  return ⟨spendableAmount, fees, selection.outpoints ++ [coin.outpoint]⟩

def Selection.new (coins : List Coin) (feerate : Nat) : Outcome Selection :=
  coins.foldlM (Selection.add feerate) ⟨0, 0, []⟩

/-- The coins worth more than twice the fee of spending them. -/
def discardDust : List Coin → Nat → Outcome (List Coin)
  | [], _ => return []
  | coin :: rest, feerate => do
      let fee ← coinFee coin feerate
      let doubled ← mulU64 fee 2
      let kept ← discardDust rest feerate
      return if doubled < coin.value then coin :: kept else kept

/-- Every non-empty subset of a list, in the order of the masks that pick
them. -/
def nonemptySubsets (coins : List Coin) : List (List Coin) :=
  coins.sublists.filter (fun subset => !subset.isEmpty)

/-- A selection for each amount some subset leaves; a later subset replaces an
earlier one of its amount. -/
def allCoinsCombinations
    (coins : List Coin)
    (feerate : Nat) : Outcome (Option (BTreeMap Nat Selection)) := do
  let coins ← discardDust coins feerate
  if coins.length = 0 ∨ coins.length > 20 then
    return none
  else do
    let selections ←
      (nonemptySubsets coins).foldlM
        (fun (selections : BTreeMap Nat Selection) subset => do
          let selection ← Selection.new subset feerate
          return selections.insert selection.spendableAmount selection)
        ∅
    return some selections

/-- The selections from an amount on, in the order of their amounts. -/
def selectionsFrom
    (selections : BTreeMap Nat Selection)
    (low : Nat) : List Selection :=
  (selections.toList.filter (fun entry => low ≤ entry.1)).map Prod.snd

/-- The selections from an amount up to another. -/
def selectionsBetween
    (selections : BTreeMap Nat Selection)
    (low high : Nat) : List Selection :=
  (selections.toList.filter
    (fun entry => low ≤ entry.1 && entry.1 < high)).map Prod.snd

/-- `BTreeMap::range` panics on a range that ends before it starts. -/
def orderedRange (low high : Nat) : Outcome Unit :=
  if low > high then
    throw
      (.panic (.expect "range start is greater than range end in BTreeMap"))
  else
    return ()

def fewestInputs (selections : List Selection) : Option Selection :=
  selections.argmin (fun selection => selection.outpoints.length)

/-- The ranges a selection with equal outputs is drawn from.  The selector
does not use what is drawn. -/
def equalOutputRanges (target : Nat) : Outcome (List (Nat × Nat)) := do
  let lower ← mulU64 target 90
  let upper ← mulU64 target 110
  [2, 3, 4, 5].mapM (fun count => do
    let low ← mulU64 (lower / 100) count
    let high ← mulU64 (upper / 100) count
    return (low, high))

structure DefaultCoinSelector where
  minChange : Nat
  maxChange : Nat
  dust : Nat

def DefaultCoinSelector.default : DefaultCoinSelector :=
  ⟨50000, 5000000, 500⟩

namespace DefaultCoinSelector

variable (selector : DefaultCoinSelector)

/-- The first choice that there is: no change to speak of, a change of the
right size, one too large, or anything that reaches the target. -/
def choose
    (selections : BTreeMap Nat Selection)
    (target feerate : Nat) : Outcome (Option Selection) := do
  let upper ← addU64 target selector.dust
  let exact := (selectionsBetween selections target upper).head?
  if target > selector.minChange ∧ feerate < 10000 then do
    let _ ← equalOutputRanges target
    finish exact
  else
    finish exact
where
  finish (exact : Option Selection) : Outcome (Option Selection) :=
    if exact.isSome then
      return exact
    else do
      let low ← addU64 target selector.minChange
      let high ← addU64 target selector.maxChange
      orderedRange low high
      match fewestInputs (selectionsBetween selections low high) with
      | some selection => return some selection
      | none =>
          match fewestInputs (selectionsFrom selections high) with
          | some selection => return some selection
          | none =>
              return fewestInputs (selectionsFrom selections target)

def select
    (coins : List Coin)
    (target feerate : Nat) : Outcome (Option Selection) := do
  let combinations ← allCoinsCombinations coins feerate
  match combinations with
  | none => return none
  | some selections => selector.choose selections target feerate

def takeCoins :
    BTreeMap OutPoint Coin → List OutPoint → Outcome (List Coin)
  | _, [] => return []
  | coins, outpoint :: rest =>
      match coins[outpoint]? with
      | none => throw (.panic (.expect "exists"))
      | some coin => do
          let taken ← takeCoins (coins.erase outpoint) rest
          return coin :: taken

def selectCoins
    (candidates : List Coin)
    (target feerate : Nat) : Outcome (List Coin) :=
  if candidates.isEmpty then
    return []
  else do
    let selection ← selector.select candidates target feerate
    match selection with
    | none => return []
    | some selection =>
        takeCoins
          (candidates.foldl
            (fun coins coin => coins.insert coin.outpoint coin)
            ∅)
          selection.outpoints

def strategy : CoinSelector :=
  fun candidates target feerate =>
    (selector.selectCoins candidates target feerate).toOption

end DefaultCoinSelector

/-- The fee of spending a coin, as an exact number. -/
def feeOf (feerate : Nat) (coin : Coin) : Nat :=
  vbytesCeil (perInputFixedWu + coin.satisfactionSize) * feerate / 1000

def leavesOf (feerate : Nat) (coin : Coin) : Nat :=
  coin.value - feeOf feerate coin

/-- What coins leave after their fees. -/
def leftBy (feerate : Nat) (coins : List Coin) : Nat :=
  (coins.map (leavesOf feerate)).sum

/-- A coin is worth spending. -/
def economical (feerate : Nat) (coin : Coin) : Bool :=
  feeOf feerate coin * 2 < coin.value

/-- Some of the economical coins, of which there are at most twenty, leave the
target. -/
def Reachable (coins : List Coin) (target feerate : Nat) : Prop :=
  (coins.filter (economical feerate)).length ≤ 20 ∧
    ∃ subset : List Coin,
      subset.Sublist (coins.filter (economical feerate)) ∧
        subset ≠ [] ∧ target ≤ leftBy feerate subset

def Selects
    (feerate : Nat)
    (subset : List Coin)
    (selection : Selection) : Prop :=
  selection.spendableAmount = leftBy feerate subset ∧
    selection.outpoints = subset.map Coin.outpoint

theorem rateFee_ok
    {weight rate fee : Nat}
    (ran : rateFee weight rate = .ok fee) :
    fee = vbytesCeil weight * rate / 1000 := by
  obtain ⟨product, multiplied, returned⟩ := bind_eq_ok.mp ran
  obtain ⟨_, rfl⟩ := mulU64_eq_ok.mp multiplied
  cases returned
  rfl

theorem coinFee_ok
    {coin : Coin}
    {feerate fee : Nat}
    (ran : coinFee coin feerate = .ok fee) :
    fee = feeOf feerate coin := by
  obtain ⟨weight, added, rated⟩ := bind_eq_ok.mp ran
  obtain ⟨_, rfl⟩ := addU64_eq_ok.mp added
  exact rateFee_ok rated

variable {feerate : Nat} {selections : BTreeMap Nat Selection}
variable {coins : List Coin} {selection : Selection}

theorem foldlM_add_ok
    {start selection : Selection}
    (ran : coins.foldlM (Selection.add feerate) start = .ok selection) :
    selection.spendableAmount =
        start.spendableAmount + leftBy feerate coins ∧
      selection.outpoints = start.outpoints ++ coins.map Coin.outpoint := by
  induction coins generalizing start with
  | nil =>
      cases ran
      simp [leftBy]
  | cons coin rest ih =>
      rw [List.foldlM_cons] at ran
      obtain ⟨next, added, ran⟩ := bind_eq_ok.mp ran
      obtain ⟨amount, outpoints⟩ := ih ran
      obtain ⟨fee, paid, added⟩ := bind_eq_ok.mp added
      obtain ⟨fees, _, added⟩ := bind_eq_ok.mp added
      obtain ⟨left, subtracted, added⟩ := bind_eq_ok.mp added
      obtain ⟨spendable, summed, added⟩ := bind_eq_ok.mp added
      cases added
      obtain ⟨_, rfl⟩ := subU64_eq_ok.mp subtracted
      obtain ⟨_, rfl⟩ := addU64_eq_ok.mp summed
      have fee := coinFee_ok paid
      subst fee
      refine ⟨?_, ?_⟩
      · rw [amount, leftBy, leftBy, List.map_cons, List.sum_cons, leavesOf,
          Nat.add_assoc]
      · rw [outpoints, List.map_cons, List.append_assoc]
        rfl

theorem Selection.new_ok
    (ran : Selection.new coins feerate = .ok selection) :
    Selects feerate coins selection := by
  obtain ⟨amount, outpoints⟩ := foldlM_add_ok ran
  exact ⟨amount.trans (Nat.zero_add _), outpoints⟩

theorem discardDust_ok
    {coins kept : List Coin}
    (ran : discardDust coins feerate = .ok kept) :
    kept = coins.filter (economical feerate) := by
  induction coins generalizing kept with
  | nil =>
      cases ran
      rfl
  | cons coin rest ih =>
      rw [discardDust] at ran
      obtain ⟨fee, paid, ran⟩ := bind_eq_ok.mp ran
      obtain ⟨doubled, multiplied, ran⟩ := bind_eq_ok.mp ran
      obtain ⟨later, remaining, ran⟩ := bind_eq_ok.mp ran
      obtain ⟨_, rfl⟩ := mulU64_eq_ok.mp multiplied
      have fee := coinFee_ok paid
      subst fee
      cases ran
      rw [ih remaining]
      by_cases worth : feeOf feerate coin * 2 < coin.value
      · rw [if_pos worth, List.filter_cons_of_pos (by simp [economical, worth])]
      · rw [if_neg worth, List.filter_cons_of_neg (by simp [economical, worth])]

theorem mem_nonemptySubsets
    {coins subset : List Coin} :
    subset ∈ nonemptySubsets coins ↔ subset.Sublist coins ∧ subset ≠ [] := by
  rw [nonemptySubsets, List.mem_filter, List.mem_sublists]
  cases subset <;> simp

/-- The map of selections has what some subset leaves, and nothing else. -/
structure Combines
    (feerate : Nat)
    (subsets : List (List Coin))
    (selections : BTreeMap Nat Selection) : Prop where
  selects :
    ∀ (amount : Nat) (selection : Selection),
      selections[amount]? = some selection →
        ∃ subset ∈ subsets, amount = leftBy feerate subset ∧
          Selects feerate subset selection
  complete :
    ∀ subset ∈ subsets,
      ∃ selection, selections[leftBy feerate subset]? = some selection

theorem foldlM_combines
    {before subsets : List (List Coin)}
    {start selections : BTreeMap Nat Selection}
    (combined : Combines feerate before start)
    (ran :
      subsets.foldlM
        (fun (selections : BTreeMap Nat Selection) subset => do
          let selection ← Selection.new subset feerate
          return selections.insert selection.spendableAmount selection)
        start = (.ok selections : Outcome _)) :
    Combines feerate (before ++ subsets) selections := by
  induction subsets generalizing before start with
  | nil =>
      cases ran
      rw [List.append_nil]
      exact combined
  | cons subset rest ih =>
      rw [List.foldlM_cons] at ran
      obtain ⟨next, inserted, ran⟩ := bind_eq_ok.mp ran
      obtain ⟨selection, made, inserted⟩ := bind_eq_ok.mp inserted
      cases inserted
      have selects := Selection.new_ok made
      have more :
          Combines feerate (before ++ [subset])
            (start.insert selection.spendableAmount selection) := by
        constructor
        · intro amount found looked
          rw [BTreeMap.getElem?_insert_eq] at looked
          by_cases same : selection.spendableAmount = amount
          · rw [if_pos same] at looked
            cases looked
            exact ⟨subset, by simp, same.symm.trans selects.1, selects⟩
          · rw [if_neg same] at looked
            obtain ⟨other, member, left, chosen⟩ :=
              combined.selects amount found looked
            exact ⟨other, List.mem_append_left _ member, left, chosen⟩
        · intro other member
          rw [BTreeMap.getElem?_insert_eq]
          by_cases same : selection.spendableAmount = leftBy feerate other
          · exact ⟨selection, if_pos same⟩
          · rw [if_neg same]
            rcases List.mem_append.mp member with earlier | last
            · exact combined.complete other earlier
            · rw [List.mem_singleton.mp last] at same
              exact absurd selects.1 same
      have later := ih more ran
      rw [List.append_assoc] at later
      exact later

theorem allCoinsCombinations_ok
    {combinations : Option (BTreeMap Nat Selection)}
    (ran : allCoinsCombinations coins feerate = .ok combinations) :
    match combinations with
    | none =>
        (coins.filter (economical feerate)).length = 0 ∨
          (coins.filter (economical feerate)).length > 20
    | some selections =>
        (coins.filter (economical feerate)).length ≤ 20 ∧
          Combines feerate
            (nonemptySubsets (coins.filter (economical feerate)))
            selections := by
  obtain ⟨kept, discarded, ran⟩ := bind_eq_ok.mp ran
  have kept := discardDust_ok discarded
  subst kept
  by_cases many :
      (coins.filter (economical feerate)).length = 0 ∨
        (coins.filter (economical feerate)).length > 20
  · rw [if_pos many] at ran
    cases ran
    exact many
  · rw [if_neg many] at ran
    obtain ⟨selections, folded, ran⟩ := bind_eq_ok.mp ran
    cases ran
    have nothing : Combines feerate [] (∅ : BTreeMap Nat Selection) := by
      constructor
      · intro amount selection looked
        simp at looked
      · intro subset member
        cases member
    have combined := foldlM_combines nothing folded
    exact ⟨by omega, combined⟩

theorem mem_selectionsFrom
    {low : Nat} :
    selection ∈ selectionsFrom selections low ↔
      ∃ amount, low ≤ amount ∧ selections[amount]? = some selection := by
  simp only [selectionsFrom, List.mem_map, List.mem_filter,
    decide_eq_true_eq, Prod.exists, exists_eq_right,
    Std.ExtTreeMap.mem_toList_iff_getElem?_eq_some]
  constructor
  · rintro ⟨amount, looked, above⟩
    exact ⟨amount, above, looked⟩
  · rintro ⟨amount, above, looked⟩
    exact ⟨amount, looked, above⟩

theorem selectionsBetween_subset
    {target low high : Nat}
    (above : target ≤ low)
    (member : selection ∈ selectionsBetween selections low high) :
    selection ∈ selectionsFrom selections target := by
  simp only [selectionsBetween, List.mem_map, List.mem_filter,
    Bool.and_eq_true, decide_eq_true_eq] at member
  obtain ⟨⟨amount, found⟩, ⟨entry, ⟨lower, _⟩⟩, rfl⟩ := member
  rw [mem_selectionsFrom]
  exact ⟨amount, le_trans above lower,
    Std.ExtTreeMap.mem_toList_iff_getElem?_eq_some.mp entry⟩

theorem fewestInputs_mem
    {selections : List Selection}
    (found : fewestInputs selections = some selection) :
    selection ∈ selections :=
  List.argmin_mem found

namespace DefaultCoinSelector

variable {selector : DefaultCoinSelector}

variable {target feerate : Nat}

theorem finish_ok
    {target : Nat}
    {exact chosen : Option Selection}
    (fits :
      ∀ selection, exact = some selection →
        selection ∈ selectionsFrom selections target)
    (ran :
      choose.finish selector selections target exact = .ok chosen) :
    (∀ selection, chosen = some selection →
        selection ∈ selectionsFrom selections target) ∧
      (chosen = none → selectionsFrom selections target = []) := by
  unfold choose.finish at ran
  cases exact with
  | some selection =>
      cases ran
      exact ⟨fits, fun impossible => by cases impossible⟩
  | none =>
      simp only [Option.isSome_none, Bool.false_eq_true, if_false] at ran
      obtain ⟨low, added, ran⟩ := bind_eq_ok.mp ran
      obtain ⟨high, raised, ran⟩ := bind_eq_ok.mp ran
      obtain ⟨_, _, ran⟩ := bind_eq_ok.mp ran
      obtain ⟨_, rfl⟩ := addU64_eq_ok.mp added
      obtain ⟨_, rfl⟩ := addU64_eq_ok.mp raised
      cases middle :
          fewestInputs
            (selectionsBetween selections (target + selector.minChange)
              (target + selector.maxChange)) with
      | some selection =>
          rw [middle] at ran
          cases ran
          refine ⟨?_, fun impossible => by cases impossible⟩
          intro found same
          cases same
          exact selectionsBetween_subset (Nat.le_add_right _ _)
            (fewestInputs_mem middle)
      | none =>
          rw [middle] at ran
          cases large :
              fewestInputs
                (selectionsFrom selections (target + selector.maxChange)) with
          | some selection =>
              rw [large] at ran
              cases ran
              refine ⟨?_, fun impossible => by cases impossible⟩
              intro found same
              cases same
              obtain ⟨amount, above, looked⟩ :=
                mem_selectionsFrom.mp (fewestInputs_mem large)
              exact mem_selectionsFrom.mpr ⟨amount, by omega, looked⟩
          | none =>
              rw [large] at ran
              cases ran
              refine ⟨fun selection found => fewestInputs_mem found, ?_⟩
              intro missing
              exact List.argmin_eq_none.mp missing

theorem choose_ok
    {chosen : Option Selection}
    (ran : selector.choose selections target feerate = .ok chosen) :
    (∀ selection, chosen = some selection →
        selection ∈ selectionsFrom selections target) ∧
      (chosen = none → selectionsFrom selections target = []) := by
  unfold choose at ran
  obtain ⟨upper, _, ran⟩ := bind_eq_ok.mp ran
  have fits :
      ∀ selection,
        (selectionsBetween selections target upper).head? = some selection →
          selection ∈ selectionsFrom selections target := by
    intro selection first
    exact selectionsBetween_subset le_rfl (List.mem_of_head? first)
  by_cases equal : target > selector.minChange ∧ feerate < 10000
  · rw [if_pos equal] at ran
    obtain ⟨_, _, ran⟩ := bind_eq_ok.mp ran
    exact finish_ok fits ran
  · rw [if_neg equal] at ran
    exact finish_ok fits ran

theorem takeCoins_length
    {coins : BTreeMap OutPoint Coin}
    {outpoints : List OutPoint}
    {taken : List Coin}
    (ran : takeCoins coins outpoints = .ok taken) :
    taken.length = outpoints.length := by
  induction outpoints generalizing coins taken with
  | nil =>
      cases ran
      rfl
  | cons outpoint rest ih =>
      unfold takeCoins at ran
      split at ran
      · cases ran
      · obtain ⟨others, later, ran⟩ := bind_eq_ok.mp ran
        cases ran
        rw [List.length_cons, List.length_cons, ih later]

/-- The selector finds coins exactly when some economical subset leaves the
target. -/
theorem selectCoins_nonempty_iff
    {candidates coins : List Coin}
    (ran : selector.selectCoins candidates target feerate = .ok coins) :
    coins ≠ [] ↔ Reachable candidates target feerate := by
  unfold selectCoins at ran
  cases empty : candidates with
  | nil =>
      subst empty
      cases ran
      constructor
      · intro impossible
        exact absurd rfl impossible
      · rintro ⟨_, subset, sub, some, _⟩
        exact absurd (List.eq_nil_of_sublist_nil sub) some
  | cons first others =>
      rw [← empty]
      have some : candidates.isEmpty = false := by
        rw [empty]
        rfl
      simp only [some, Bool.false_eq_true, if_false] at ran
      obtain ⟨chosen, selected, ran⟩ := bind_eq_ok.mp ran
      unfold select at selected
      obtain ⟨combinations, combined, selected⟩ := bind_eq_ok.mp selected
      have found := allCoinsCombinations_ok combined
      cases combinations with
      | none =>
          cases selected
          cases ran
          constructor
          · intro impossible
            exact absurd rfl impossible
          · rintro ⟨few, subset, sub, some, _⟩
            rcases found with zero | many
            · have nothing := List.eq_nil_of_length_eq_zero zero
              rw [nothing] at sub
              exact absurd (List.eq_nil_of_sublist_nil sub) some
            · omega
      | some selections =>
          obtain ⟨few, combines⟩ := found
          obtain ⟨reaches, misses⟩ := choose_ok selected
          cases chosen with
          | none =>
              cases ran
              constructor
              · intro impossible
                exact absurd rfl impossible
              · rintro ⟨_, subset, sub, some, enough⟩
                obtain ⟨selection, looked⟩ :=
                  combines.complete subset
                    (mem_nonemptySubsets.mpr ⟨sub, some⟩)
                have member : selection ∈ selectionsFrom selections target :=
                  mem_selectionsFrom.mpr ⟨_, enough, looked⟩
                rw [misses rfl] at member
                cases member
          | some selection =>
              obtain ⟨amount, enough, looked⟩ :=
                mem_selectionsFrom.mp (reaches selection rfl)
              obtain ⟨subset, member, left, chosen⟩ :=
                combines.selects amount selection looked
              obtain ⟨sub, some⟩ := mem_nonemptySubsets.mp member
              constructor
              · intro _
                exact ⟨few, subset, sub, some, left ▸ enough⟩
              · intro _ nothing
                have length := takeCoins_length ran
                rw [nothing, chosen.2, List.length_map] at length
                exact some (List.eq_nil_of_length_eq_zero length.symm)

end DefaultCoinSelector

end Bwk.Tx
