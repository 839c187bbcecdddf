import Bwk.TxSelection

namespace Bwk.Tx

/-!
# When the selector is sound and complete

With the arithmetic in range and the bounds of the change in order, the selector
finds a selection exactly when some subset of the economical coins leaves the
target, its sums are the true ones, and its coins are returned.
-/

structure FeeFits (feerate : Nat) (coin : Coin) : Prop where
  weight : perInputFixedWu + coin.satisfactionSize ≤ u64Max
  product :
    vbytesCeil (perInputFixedWu + coin.satisfactionSize) * feerate ≤ u64Max
  doubled : feeOf feerate coin * 2 ≤ u64Max

/-- What coins cost together. -/
def feesOf (feerate : Nat) (coins : List Coin) : Nat :=
  (coins.map (feeOf feerate)).sum

/-- The selection of a subset, with its true sums. -/
def selectionOf (feerate : Nat) (coins : List Coin) : Selection :=
  ⟨leftBy feerate coins, feesOf feerate coins, coins.map Coin.outpoint⟩

@[simp]
theorem leftBy_cons
    (feerate : Nat)
    (coin : Coin)
    (coins : List Coin) :
    leftBy feerate (coin :: coins) =
      leavesOf feerate coin + leftBy feerate coins := by
  simp [leftBy]

@[simp]
theorem feesOf_cons
    (feerate : Nat)
    (coin : Coin)
    (coins : List Coin) :
    feesOf feerate (coin :: coins) =
      feeOf feerate coin + feesOf feerate coins := by
  simp [feesOf]

variable {feerate : Nat} {coin : Coin} {coins : List Coin}
variable {subsets : List (List Coin)} {selection : Selection}
variable {subset : List Coin}

theorem feeOf_lt_leavesOf
    (worth : economical feerate coin = true) :
    feeOf feerate coin < leavesOf feerate coin := by
  rw [economical, decide_eq_true_eq] at worth
  rw [leavesOf]
  omega

theorem leftBy_mono
    {subset coins : List Coin}
    (sub : subset.Sublist coins) :
    leftBy feerate subset ≤ leftBy feerate coins :=
  (sub.map (leavesOf feerate)).sum_le_sum (fun _ _ => Nat.zero_le _)

theorem coinFee_eq_ok
    {feerate fee : Nat} :
    coinFee coin feerate = .ok fee ↔
      perInputFixedWu + coin.satisfactionSize ≤ u64Max ∧
        vbytesCeil (perInputFixedWu + coin.satisfactionSize) * feerate ≤
          u64Max ∧
        feeOf feerate coin = fee := by
  rw [coinFee, bind_eq_ok]
  constructor
  · rintro ⟨weight, added, rated⟩
    obtain ⟨fits, rfl⟩ := addU64_eq_ok.mp added
    obtain ⟨product, multiplied, returned⟩ := bind_eq_ok.mp rated
    obtain ⟨productFits, rfl⟩ := mulU64_eq_ok.mp multiplied
    cases returned
    exact ⟨fits, productFits, rfl⟩
  · rintro ⟨fits, productFits, rfl⟩
    refine ⟨_, addU64_eq_ok.mpr ⟨fits, rfl⟩, ?_⟩
    rw [rateFee, bind_eq_ok]
    exact ⟨_, mulU64_eq_ok.mpr ⟨productFits, rfl⟩, rfl⟩

theorem discardDust_eq_ok
    {coins kept : List Coin} :
    discardDust coins feerate = .ok kept ↔
      (∀ coin ∈ coins, FeeFits feerate coin) ∧
        coins.filter (economical feerate) = kept := by
  induction coins generalizing kept with
  | nil =>
      rw [discardDust]
      simp [pure, Except.pure]
  | cons coin rest inductionHypothesis =>
      constructor
      · intro ran
        refine ⟨?_, (discardDust_ok ran).symm⟩
        rw [discardDust] at ran
        obtain ⟨fee, paid, ran⟩ := bind_eq_ok.mp ran
        obtain ⟨doubled, multiplied, ran⟩ := bind_eq_ok.mp ran
        obtain ⟨later, remaining, _⟩ := bind_eq_ok.mp ran
        obtain ⟨weight, product, rfl⟩ := coinFee_eq_ok.mp paid
        obtain ⟨doubledFits, _⟩ := mulU64_eq_ok.mp multiplied
        intro other member
        rcases List.mem_cons.mp member with rfl | member
        · exact ⟨weight, product, doubledFits⟩
        · exact (inductionHypothesis.mp remaining).1 other member
      · rintro ⟨fits, rfl⟩
        have here := fits coin List.mem_cons_self
        have later :=
          inductionHypothesis.mpr
            ⟨fun other member => fits other (List.mem_cons_of_mem _ member),
              rfl⟩
        rw [discardDust, bind_eq_ok]
        refine ⟨_, coinFee_eq_ok.mpr ⟨here.weight, here.product, rfl⟩, ?_⟩
        rw [bind_eq_ok]
        refine ⟨_, mulU64_eq_ok.mpr ⟨here.doubled, rfl⟩, ?_⟩
        rw [bind_eq_ok]
        refine ⟨_, later, ?_⟩
        by_cases worth : feeOf feerate coin * 2 < coin.value
        · rw [if_pos worth,
            List.filter_cons_of_pos (by simp [economical, worth])]
          rfl
        · rw [if_neg worth,
            List.filter_cons_of_neg (by simp [economical, worth])]
          rfl

/-- Adding an economical coin takes the sum of what is left to fit; the fees are
less. -/
theorem Selection.add_eq_ok
    {selection next : Selection}
    (fits : FeeFits feerate coin)
    (worth : economical feerate coin = true)
    (bounded : selection.fees ≤ selection.spendableAmount) :
    selection.add feerate coin = .ok next ↔
      selection.spendableAmount + leavesOf feerate coin ≤ u64Max ∧
        (⟨selection.spendableAmount + leavesOf feerate coin,
          selection.fees + feeOf feerate coin,
          selection.outpoints ++ [coin.outpoint]⟩ : Selection) = next := by
  have cheap := feeOf_lt_leavesOf worth
  have below : feeOf feerate coin ≤ coin.value := by
    rw [economical, decide_eq_true_eq] at worth
    omega
  have paid : coinFee coin feerate = .ok (feeOf feerate coin) :=
    coinFee_eq_ok.mpr ⟨fits.weight, fits.product, rfl⟩
  have left :
      (subU64 coin.value (feeOf feerate coin) : Outcome Nat) =
        .ok (leavesOf feerate coin) :=
    subU64_eq_ok.mpr ⟨below, rfl⟩
  rw [Selection.add, paid, ok_bind, bind_eq_ok]
  constructor
  · rintro ⟨fees, added, ran⟩
    rw [left, ok_bind, bind_eq_ok] at ran
    obtain ⟨amount, summed, returned⟩ := ran
    obtain ⟨_, rfl⟩ := addU64_eq_ok.mp added
    obtain ⟨inside, rfl⟩ := addU64_eq_ok.mp summed
    cases returned
    exact ⟨inside, rfl⟩
  · rintro ⟨inside, rfl⟩
    refine ⟨_, addU64_eq_ok.mpr ⟨by omega, rfl⟩, ?_⟩
    rw [left, ok_bind, bind_eq_ok]
    exact ⟨_, addU64_eq_ok.mpr ⟨inside, rfl⟩, rfl⟩

theorem foldlM_add_eq_ok
    {feerate : Nat}
    {coins : List Coin}
    {start selection : Selection}
    (fits : ∀ coin ∈ coins, FeeFits feerate coin)
    (worth : ∀ coin ∈ coins, economical feerate coin = true)
    (bounded : start.fees ≤ start.spendableAmount)
    (inside : start.spendableAmount ≤ u64Max) :
    coins.foldlM (Selection.add feerate) start = .ok selection ↔
      start.spendableAmount + leftBy feerate coins ≤ u64Max ∧
        (⟨start.spendableAmount + leftBy feerate coins,
          start.fees + feesOf feerate coins,
          start.outpoints ++ coins.map Coin.outpoint⟩ : Selection) =
            selection := by
  induction coins generalizing start with
  | nil =>
      rw [List.foldlM_nil]
      simp [leftBy, feesOf, pure, Except.pure, inside]
  | cons coin rest inductionHypothesis =>
      have here := fits coin List.mem_cons_self
      have economic := worth coin List.mem_cons_self
      have cheap := feeOf_lt_leavesOf economic
      have later {next : Selection} (below : next.fees ≤ next.spendableAmount)
          (nextInside : next.spendableAmount ≤ u64Max) :=
        inductionHypothesis
          (fun other member => fits other (List.mem_cons_of_mem _ member))
          (fun other member => worth other (List.mem_cons_of_mem _ member))
          below nextInside
      rw [List.foldlM_cons, leftBy_cons, feesOf_cons, List.map_cons,
        bind_eq_ok, ← Nat.add_assoc, ← Nat.add_assoc,
        List.append_cons]
      constructor
      · rintro ⟨next, added, ran⟩
        obtain ⟨nextInside, rfl⟩ :=
          (Selection.add_eq_ok here economic bounded).mp added
        exact (later (Nat.add_le_add bounded cheap.le) nextInside).mp ran
      · rintro ⟨nextInside, rfl⟩
        have fitsHere :
            start.spendableAmount + leavesOf feerate coin ≤ u64Max := by
          omega
        refine
          ⟨_, (Selection.add_eq_ok here economic bounded).mpr
            ⟨fitsHere, rfl⟩, ?_⟩
        exact
          (later (Nat.add_le_add bounded cheap.le) fitsHere).mpr
            ⟨nextInside, rfl⟩

theorem Selection.new_eq_ok
    (fits : ∀ coin ∈ coins, FeeFits feerate coin)
    (worth : ∀ coin ∈ coins, economical feerate coin = true) :
    Selection.new coins feerate = .ok selection ↔
      leftBy feerate coins ≤ u64Max ∧
        selectionOf feerate coins = selection := by
  have sums :=
    @foldlM_add_eq_ok feerate coins ⟨0, 0, []⟩ selection fits worth le_rfl
      (Nat.zero_le _)
  simp only [Nat.zero_add, List.nil_append] at sums
  exact sums

/-- The selections of some subsets, a later one replacing an earlier one that
leaves as much. -/
def combinationsOf
    (feerate : Nat)
    (subsets : List (List Coin)) : BTreeMap Nat Selection :=
  subsets.foldl
    (fun selections subset =>
      selections.insert (leftBy feerate subset) (selectionOf feerate subset))
    ∅

/-- Folding the subsets of economical coins into the map takes what all of them
leave to fit. -/
theorem foldlM_insert_eq
    (start : BTreeMap Nat Selection)
    (fits : ∀ coin ∈ coins, FeeFits feerate coin)
    (worth : ∀ coin ∈ coins, economical feerate coin = true)
    (inside : leftBy feerate coins ≤ u64Max)
    (subs : ∀ subset ∈ subsets, subset.Sublist coins) :
    subsets.foldlM
        (fun (selections : BTreeMap Nat Selection) subset => do
          let selection ← Selection.new subset feerate
          return selections.insert selection.spendableAmount selection)
        start =
      (.ok
        (subsets.foldl
          (fun selections subset =>
            selections.insert (leftBy feerate subset)
              (selectionOf feerate subset))
          start) : Outcome _) := by
  induction subsets generalizing start with
  | nil => rfl
  | cons subset rest inductionHypothesis =>
      have sub := subs subset List.mem_cons_self
      have made :
          Selection.new subset feerate = .ok (selectionOf feerate subset) :=
        (Selection.new_eq_ok (fun coin member => fits coin (sub.subset member))
          fun coin member => worth coin (sub.subset member)).mpr
          ⟨(leftBy_mono sub).trans inside, rfl⟩
      rw [List.foldlM_cons, made, ok_bind]
      exact
        inductionHypothesis _ fun other member =>
          subs other (List.mem_cons_of_mem _ member)

theorem made_of_foldlM
    {start selections : BTreeMap Nat Selection}
    (ran :
      subsets.foldlM
          (fun (selections : BTreeMap Nat Selection) subset => do
            let selection ← Selection.new subset feerate
            return selections.insert selection.spendableAmount selection)
          start = (.ok selections : Outcome _))
    (member : subset ∈ subsets) :
    ∃ selection, Selection.new subset feerate = .ok selection := by
  induction subsets generalizing start with
  | nil => cases member
  | cons first rest inductionHypothesis =>
      rw [List.foldlM_cons] at ran
      obtain ⟨next, inserted, ran⟩ := bind_eq_ok.mp ran
      obtain ⟨selection, made, _⟩ := bind_eq_ok.mp inserted
      rcases List.mem_cons.mp member with rfl | member
      · exact ⟨selection, made⟩
      · exact inductionHypothesis ran member

/-- All the fees fit, and so does what the economical coins leave together. -/
structure SumsFit (feerate : Nat) (coins : List Coin) : Prop where
  fees : ∀ coin ∈ coins, FeeFits feerate coin
  sum : leftBy feerate (coins.filter (economical feerate)) ≤ u64Max

/-- What the map of selections takes, and what it is, for between one and
twenty economical coins. -/
theorem allCoinsCombinations_eq_ok
    {combinations : Option (BTreeMap Nat Selection)}
    (positive : 1 ≤ (coins.filter (economical feerate)).length)
    (few : (coins.filter (economical feerate)).length ≤ 20) :
    allCoinsCombinations coins feerate = .ok combinations ↔
      SumsFit feerate coins ∧
        some
            (combinationsOf feerate
              (nonemptySubsets (coins.filter (economical feerate)))) =
          combinations := by
  have worth :
      ∀ coin ∈ coins.filter (economical feerate),
        economical feerate coin = true :=
    fun coin member => (List.mem_filter.mp member).2
  have subs :
      ∀ subset ∈ nonemptySubsets (coins.filter (economical feerate)),
        subset.Sublist (coins.filter (economical feerate)) :=
    fun subset member => (mem_nonemptySubsets.mp member).1
  have several :
      ¬ ((coins.filter (economical feerate)).length = 0 ∨
        (coins.filter (economical feerate)).length > 20) := by
    omega
  rw [allCoinsCombinations, bind_eq_ok]
  constructor
  · rintro ⟨kept, discarded, ran⟩
    obtain ⟨fees, rfl⟩ := discardDust_eq_ok.mp discarded
    have fees' :
        ∀ coin ∈ coins.filter (economical feerate), FeeFits feerate coin :=
      fun coin member => fees coin (List.mem_of_mem_filter member)
    rw [if_neg several, bind_eq_ok] at ran
    obtain ⟨selections, folded, returned⟩ := ran
    have inside :
        leftBy feerate (coins.filter (economical feerate)) ≤ u64Max := by
      have all :
          coins.filter (economical feerate) ∈
            nonemptySubsets (coins.filter (economical feerate)) :=
        mem_nonemptySubsets.mpr
          ⟨List.Sublist.refl _, List.ne_nil_of_length_pos positive⟩
      obtain ⟨selection, made⟩ := made_of_foldlM folded all
      exact ((Selection.new_eq_ok fees' worth).mp made).1
    rw [foldlM_insert_eq ∅ fees' worth inside subs] at folded
    cases folded
    cases returned
    exact ⟨⟨fees, inside⟩, rfl⟩
  · rintro ⟨sums, rfl⟩
    refine ⟨_, discardDust_eq_ok.mpr ⟨sums.fees, rfl⟩, ?_⟩
    rw [if_neg several,
      foldlM_insert_eq ∅
        (fun coin member => sums.fees coin (List.mem_of_mem_filter member))
        worth sums.sum subs]
    rfl

theorem some_economical
    {candidates : List Coin}
    {selections : BTreeMap Nat Selection}
    (combined :
      allCoinsCombinations candidates feerate = .ok (some selections)) :
    1 ≤ (candidates.filter (economical feerate)).length := by
  by_contra none
  obtain ⟨kept, discarded, ran⟩ := bind_eq_ok.mp combined
  rw [discardDust_ok discarded, if_pos (Or.inl (by omega))] at ran
  cases ran

theorem getElem?_combinationsOf
    (feerate : Nat)
    (subsets : List (List Coin))
    (amount : Nat) :
    (combinationsOf feerate subsets)[amount]? =
      ((subsets.filter fun subset => leftBy feerate subset = amount).getLast?).map
        (selectionOf feerate) := by
  induction subsets using List.reverseRecOn with
  | nil => simp [combinationsOf]
  | append_singleton rest subset inductionHypothesis =>
      rw [combinationsOf, List.foldl_append, List.filter_append]
      show ((combinationsOf feerate rest).insert _ _)[amount]? = _
      rw [BTreeMap.getElem?_insert_eq]
      by_cases same : leftBy feerate subset = amount
      · simp [same]
      · simp [same, inductionHypothesis]

theorem selectionOf_of_getElem?
    {amount : Nat}
    (found : (combinationsOf feerate subsets)[amount]? = some selection) :
    ∃ subset ∈ subsets,
      leftBy feerate subset = amount ∧
        selectionOf feerate subset = selection := by
  rw [getElem?_combinationsOf, Option.map_eq_some_iff] at found
  obtain ⟨subset, last, same⟩ := found
  have member := List.mem_of_getLast? last
  rw [List.mem_filter, decide_eq_true_eq] at member
  exact ⟨subset, member.1, member.2, same⟩

theorem getElem?_combinationsOf_isSome
    (member : subset ∈ subsets) :
    ∃ selection,
      (combinationsOf feerate subsets)[leftBy feerate subset]? =
        some selection := by
  have kept :
      subset ∈
        subsets.filter fun other =>
          leftBy feerate other = leftBy feerate subset :=
    List.mem_filter.mpr ⟨member, by simp⟩
  rw [getElem?_combinationsOf]
  rw [List.getLast?_eq_some_getLast (List.ne_nil_of_mem kept)]
  exact ⟨_, rfl⟩

theorem equalOutputRanges_isOk_iff (target : Nat) :
    (∃ ranges, equalOutputRanges target = .ok ranges) ↔
      target * 110 ≤ u64Max := by
  constructor
  · rintro ⟨ranges, ran⟩
    obtain ⟨_, _, ran⟩ := bind_eq_ok.mp ran
    obtain ⟨_, multiplied, _⟩ := bind_eq_ok.mp ran
    exact (mulU64_eq_ok.mp multiplied).1
  · intro fits
    have lower : (mulU64 target 90 : Outcome Nat) = .ok (target * 90) :=
      fitU64_of_le (by omega)
    have upper : (mulU64 target 110 : Outcome Nat) = .ok (target * 110) :=
      fitU64_of_le fits
    have low (count : Nat) (few : count ≤ 5) :
        (mulU64 (target * 90 / 100) count : Outcome Nat) =
          .ok (target * 90 / 100 * count) := by
      refine fitU64_of_le (le_trans (Nat.mul_le_mul_left _ few) ?_)
      omega
    have high (count : Nat) (few : count ≤ 5) :
        (mulU64 (target * 110 / 100) count : Outcome Nat) =
          .ok (target * 110 / 100 * count) := by
      refine fitU64_of_le (le_trans (Nat.mul_le_mul_left _ few) ?_)
      omega
    rw [equalOutputRanges, lower, ok_bind, upper, ok_bind]
    simp only [List.mapM_cons, List.mapM_nil, low 2 (by decide),
      low 3 (by decide), low 4 (by decide), low 5 (by decide),
      high 2 (by decide), high 3 (by decide), high 4 (by decide),
      high 5 (by decide), ok_bind, pure_bind]
    exact ⟨_, rfl⟩

namespace DefaultCoinSelector

variable (selector : DefaultCoinSelector)

/-- The selection picked outside the exact range. -/
def pickChange
    (selections : BTreeMap Nat Selection)
    (target : Nat) : Option Selection :=
  (fewestInputs
      (selectionsBetween selections (target + selector.minChange)
        (target + selector.maxChange))).or
    ((fewestInputs
        (selectionsFrom selections (target + selector.maxChange))).or
      (fewestInputs (selectionsFrom selections target)))

def pick
    (selections : BTreeMap Nat Selection)
    (target : Nat) : Option Selection :=
  (selectionsBetween selections target (target + selector.dust)).head?.or
    (selector.pickChange selections target)

/-- The arithmetic and the ranges the choice takes. -/
structure ChoiceFits
    (selections : BTreeMap Nat Selection)
    (target feerate : Nat) : Prop where
  equal :
    target > selector.minChange ∧ feerate < 10000 → target * 110 ≤ u64Max
  ordered :
    selectionsBetween selections target (target + selector.dust) ≠ [] ∨
      selector.minChange ≤ selector.maxChange

theorem finish_eq_ok
    {selections : BTreeMap Nat Selection}
    {target : Nat}
    {exact chosen : Option Selection}
    (least : target + selector.minChange ≤ u64Max)
    (most : target + selector.maxChange ≤ u64Max) :
    choose.finish selector selections target exact = .ok chosen ↔
      (exact ≠ none ∨ selector.minChange ≤ selector.maxChange) ∧
        exact.or (selector.pickChange selections target) = chosen := by
  unfold choose.finish
  cases exact with
  | some selection =>
      simp [pure, Except.pure]
  | none =>
      have low :
          (addU64 target selector.minChange : Outcome Nat) =
            .ok (target + selector.minChange) :=
        fitU64_of_le least
      have high :
          (addU64 target selector.maxChange : Outcome Nat) =
            .ok (target + selector.maxChange) :=
        fitU64_of_le most
      simp only [Option.isSome_none, Bool.false_eq_true, if_false, low, high,
        ok_bind, orderedRange, ne_eq, not_true_eq_false, false_or,
        Option.none_or]
      by_cases ordered : selector.minChange ≤ selector.maxChange
      · rw [if_neg (by omega)]
        simp only [pure_bind, ordered, true_and, pickChange]
        cases fewestInputs
            (selectionsBetween selections (target + selector.minChange)
              (target + selector.maxChange)) with
        | some selection =>
            simp [pure, Except.pure]
        | none =>
            cases fewestInputs
                (selectionsFrom selections (target + selector.maxChange)) with
            | some selection | none => simp [pure, Except.pure]
      · rw [if_pos (by omega)]
        simp [ordered, throw, throwThe, MonadExceptOf.throw]

theorem choose_eq_ok
    {selections : BTreeMap Nat Selection}
    {target feerate : Nat}
    {chosen : Option Selection}
    (dust : target + selector.dust ≤ u64Max)
    (least : target + selector.minChange ≤ u64Max)
    (most : target + selector.maxChange ≤ u64Max) :
    selector.choose selections target feerate = .ok chosen ↔
      selector.ChoiceFits selections target feerate ∧
        selector.pick selections target = chosen := by
  have upper :
      (addU64 target selector.dust : Outcome Nat) =
        .ok (target + selector.dust) :=
    fitU64_of_le dust
  have finishes :=
    @finish_eq_ok selector selections target
      (selectionsBetween selections target (target + selector.dust)).head?
      chosen least most
  have present :
      (selectionsBetween selections target (target + selector.dust)).head? ≠
          none ↔
        selectionsBetween selections target (target + selector.dust) ≠ [] := by
    rw [ne_eq, List.head?_eq_none_iff]
  rw [present] at finishes
  rw [choose, upper, ok_bind]
  by_cases equal : target > selector.minChange ∧ feerate < 10000
  · simp only [if_pos equal]
    rw [bind_eq_ok]
    constructor
    · rintro ⟨ranges, ran, finished⟩
      obtain ⟨ordered, picked⟩ := finishes.mp finished
      refine ⟨⟨fun _ => ?_, ordered⟩, picked⟩
      exact (equalOutputRanges_isOk_iff target).mp ⟨ranges, ran⟩
    · rintro ⟨fits, picked⟩
      obtain ⟨ranges, ran⟩ :=
        (equalOutputRanges_isOk_iff target).mpr (fits.equal equal)
      exact ⟨ranges, ran, finishes.mpr ⟨fits.ordered, picked⟩⟩
  · simp only [if_neg equal]
    rw [finishes]
    constructor
    · rintro ⟨ordered, picked⟩
      exact ⟨⟨fun impossible => absurd impossible equal, ordered⟩, picked⟩
    · rintro ⟨fits, picked⟩
      exact ⟨fits.ordered, picked⟩

theorem takeCoins_eq
    {coins : BTreeMap OutPoint Coin}
    (distinct : (subset.map Coin.outpoint).Nodup)
    (held : ∀ coin ∈ subset, coins[coin.outpoint]? = some coin) :
    takeCoins coins (subset.map Coin.outpoint) = .ok subset := by
  induction subset generalizing coins with
  | nil => rfl
  | cons coin rest inductionHypothesis =>
      rw [List.map_cons, List.nodup_cons] at distinct
      have later :
          takeCoins (coins.erase coin.outpoint) (rest.map Coin.outpoint) =
            .ok rest := by
        refine inductionHypothesis distinct.2 fun other member => ?_
        have apart : coin.outpoint ≠ other.outpoint := by
          intro same
          exact distinct.1 (same ▸ List.mem_map_of_mem member)
        rw [BTreeMap.getElem?_erase_eq, if_neg apart]
        exact held other (List.mem_cons_of_mem _ member)
      rw [List.map_cons, takeCoins, held coin List.mem_cons_self]
      simp only [later, ok_bind]
      rfl

theorem getElem?_foldl_insert
    {candidates : List Coin}
    (distinct : (candidates.map Coin.outpoint).Nodup)
    (member : coin ∈ candidates) :
    (candidates.foldl
        (fun (coins : BTreeMap OutPoint Coin) coin =>
          coins.insert coin.outpoint coin)
        ∅)[coin.outpoint]? =
      some coin := by
  have stored :
      candidates.foldl
          (fun (coins : BTreeMap OutPoint Coin) coin =>
            coins.insert coin.outpoint coin)
          ∅ =
        BTreeMap.insertAll ∅
          (candidates.map fun coin => (coin.outpoint, coin)) := by
    rw [BTreeMap.insertAll, List.foldl_map]
  have keys :
      ((candidates.map fun coin => (coin.outpoint, coin)).map
        Prod.fst).Nodup := by
    rw [List.map_map]
    exact distinct
  rw [stored, BTreeMap.getElem?_insertAll_of_nodup _ keys]
  exact Or.inl (List.mem_map_of_mem member)

/-- The arithmetic stays in the type, and the bounds of the change are in order
where they are looked at. -/
structure InRange
    (candidates : List Coin)
    (target feerate : Nat) : Prop where
  sums : SumsFit feerate candidates
  equal :
    target > selector.minChange ∧ feerate < 10000 → target * 110 ≤ u64Max
  ordered :
    (∃ subset : List Coin,
        subset.Sublist (candidates.filter (economical feerate)) ∧
          subset ≠ [] ∧ target ≤ leftBy feerate subset ∧
          leftBy feerate subset < target + selector.dust) ∨
      selector.minChange ≤ selector.maxChange

/-- The selector finds a selection exactly when some subset of the economical
coins leaves the target, with the true sums of such a subset, and returns its
coins. -/
def SelectsRight
    (candidates : List Coin)
    (target feerate : Nat) : Prop :=
  ∃ chosen,
    selector.select candidates target feerate = .ok chosen ∧
      (chosen ≠ none ↔
        ∃ subset : List Coin,
          subset.Sublist (candidates.filter (economical feerate)) ∧
            target ≤ leftBy feerate subset) ∧
      ∀ selection, chosen = some selection →
        ∃ subset : List Coin,
          subset.Sublist (candidates.filter (economical feerate)) ∧
            target ≤ leftBy feerate subset ∧
            selection.outpoints = subset.map Coin.outpoint ∧
            selection.outpoints.Nodup ∧
            selection.spendableAmount = leftBy feerate subset ∧
            selection.fees = feesOf feerate subset ∧
            selector.selectCoins candidates target feerate = .ok subset

variable {selector}

variable {selections : BTreeMap Nat Selection} {target feerate : Nat}

theorem mem_selectionsBetween
    {low high : Nat} :
    selection ∈ selectionsBetween selections low high ↔
      ∃ amount, low ≤ amount ∧ amount < high ∧
        selections[amount]? = some selection := by
  simp only [selectionsBetween, List.mem_map, List.mem_filter,
    Bool.and_eq_true, decide_eq_true_eq, Prod.exists, exists_eq_right,
    Std.ExtTreeMap.mem_toList_iff_getElem?_eq_some]
  constructor
  · rintro ⟨amount, looked, above, below⟩
    exact ⟨amount, above, below, looked⟩
  · rintro ⟨amount, above, below, looked⟩
    exact ⟨amount, looked, above, below⟩

theorem selectionsBetween_ne_nil_iff
    {feerate low high : Nat} :
    selectionsBetween (combinationsOf feerate (nonemptySubsets coins)) low
        high ≠ [] ↔
      ∃ subset : List Coin,
        subset.Sublist coins ∧ subset ≠ [] ∧ low ≤ leftBy feerate subset ∧
          leftBy feerate subset < high := by
  constructor
  · intro some
    obtain ⟨selection, member⟩ := List.exists_mem_of_ne_nil _ some
    obtain ⟨amount, above, below, found⟩ := mem_selectionsBetween.mp member
    obtain ⟨subset, listed, rfl, _⟩ := selectionOf_of_getElem? found
    obtain ⟨sub, some⟩ := mem_nonemptySubsets.mp listed
    exact ⟨subset, sub, some, above, below⟩
  · rintro ⟨subset, sub, some, above, below⟩
    obtain ⟨selection, found⟩ :=
      @getElem?_combinationsOf_isSome feerate _ _
        (mem_nonemptySubsets.mpr ⟨sub, some⟩)
    exact
      List.ne_nil_of_mem
        (mem_selectionsBetween.mpr ⟨_, above, below, found⟩)

theorem mem_of_pick
    {target : Nat}
    (picked : selector.pick selections target = some selection) :
    selection ∈ selectionsFrom selections target := by
  rw [pick, Option.or_eq_some_iff] at picked
  rcases picked with first | ⟨_, picked⟩
  · exact selectionsBetween_subset le_rfl (List.mem_of_head? first)
  rw [pickChange, Option.or_eq_some_iff] at picked
  rcases picked with middle | ⟨_, picked⟩
  · exact selectionsBetween_subset (Nat.le_add_right _ _)
      (fewestInputs_mem middle)
  rw [Option.or_eq_some_iff] at picked
  rcases picked with large | ⟨_, any⟩
  · obtain ⟨amount, above, looked⟩ :=
      mem_selectionsFrom.mp (fewestInputs_mem large)
    exact mem_selectionsFrom.mpr ⟨amount, by omega, looked⟩
  · exact fewestInputs_mem any

theorem selectionsFrom_of_pick_none
    {target : Nat}
    (missed : selector.pick selections target = none) :
    selectionsFrom selections target = [] := by
  rw [pick, Option.or_eq_none_iff, pickChange, Option.or_eq_none_iff,
    Option.or_eq_none_iff] at missed
  exact List.argmin_eq_none.mp missed.2.2.2

/-- What is picked is the selection of a subset that leaves the target, and
nothing is only picked for want of one. -/
theorem pick_spec
    {feerate target : Nat}
    {coins : List Coin} :
    (∀ selection,
        selector.pick (combinationsOf feerate (nonemptySubsets coins))
            target = some selection →
          ∃ subset : List Coin,
            subset.Sublist coins ∧ subset ≠ [] ∧
              target ≤ leftBy feerate subset ∧
              selectionOf feerate subset = selection) ∧
      (selector.pick (combinationsOf feerate (nonemptySubsets coins))
          target = none →
        ∀ subset : List Coin, subset.Sublist coins → subset ≠ [] →
          leftBy feerate subset < target) := by
  constructor
  · intro selection picked
    obtain ⟨amount, above, found⟩ :=
      mem_selectionsFrom.mp (mem_of_pick picked)
    obtain ⟨subset, listed, rfl, same⟩ := selectionOf_of_getElem? found
    obtain ⟨sub, some⟩ := mem_nonemptySubsets.mp listed
    exact ⟨subset, sub, some, above, same⟩
  · intro missed subset sub some
    by_contra reaches
    obtain ⟨selection, found⟩ :=
      @getElem?_combinationsOf_isSome feerate _ _
        (mem_nonemptySubsets.mpr ⟨sub, some⟩)
    have member :
        selection ∈
          selectionsFrom (combinationsOf feerate (nonemptySubsets coins))
            target :=
      mem_selectionsFrom.mpr ⟨_, by omega, found⟩
    rw [selectionsFrom_of_pick_none missed] at member
    cases member

theorem select_eq_ok
    (selector : DefaultCoinSelector)
    {candidates : List Coin}
    {chosen : Option Selection}
    (positive : 1 ≤ (candidates.filter (economical feerate)).length)
    (few : (candidates.filter (economical feerate)).length ≤ 20)
    (dust : target + selector.dust ≤ u64Max)
    (least : target + selector.minChange ≤ u64Max)
    (most : target + selector.maxChange ≤ u64Max) :
    selector.select candidates target feerate = .ok chosen ↔
      selector.InRange candidates target feerate ∧
        selector.pick
            (combinationsOf feerate
              (nonemptySubsets (candidates.filter (economical feerate))))
            target =
          chosen := by
  rw [select, bind_eq_ok]
  constructor
  · rintro ⟨combinations, combined, ran⟩
    obtain ⟨sums, rfl⟩ :=
      (allCoinsCombinations_eq_ok positive few).mp combined
    obtain ⟨fits, picked⟩ :=
      (selector.choose_eq_ok dust least most).mp ran
    refine ⟨⟨sums, fits.equal, ?_⟩, picked⟩
    rw [← selectionsBetween_ne_nil_iff]
    exact fits.ordered
  · rintro ⟨inRange, picked⟩
    refine
      ⟨_, (allCoinsCombinations_eq_ok positive few).mpr
        ⟨inRange.sums, rfl⟩, ?_⟩
    refine
      (selector.choose_eq_ok dust least most).mpr
        ⟨⟨inRange.equal, ?_⟩, picked⟩
    rw [selectionsBetween_ne_nil_iff]
    exact inRange.ordered

theorem selectCoins_of_select
    (selector : DefaultCoinSelector)
    {candidates subset : List Coin}
    (distinct : (candidates.map Coin.outpoint).Nodup)
    (some : candidates ≠ [])
    (sub : subset.Sublist candidates)
    (selected :
      selector.select candidates target feerate =
        .ok (Option.some (selectionOf feerate subset))) :
    selector.selectCoins candidates target feerate = .ok subset := by
  have held :
      ∀ coin ∈ subset,
        (candidates.foldl
          (fun (coins : BTreeMap OutPoint Coin) coin =>
            coins.insert coin.outpoint coin)
          ∅)[coin.outpoint]? =
        Option.some coin :=
    fun coin member => getElem?_foldl_insert distinct (sub.subset member)
  rw [selectCoins, if_neg (by simpa using some), selected, ok_bind]
  exact takeCoins_eq (distinct.sublist (sub.map _)) held

/-- The selector is right exactly when its arithmetic stays in range and the
bounds of the change are in order where they are looked at. -/
theorem selects_right_iff
    (selector : DefaultCoinSelector)
    (candidates : List Coin)
    (target feerate : Nat)
    (distinct : (candidates.map Coin.outpoint).Nodup)
    (positive : 1 ≤ (candidates.filter (economical feerate)).length)
    (few : (candidates.filter (economical feerate)).length ≤ 20)
    (dust : target + selector.dust ≤ u64Max)
    (least : target + selector.minChange ≤ u64Max)
    (most : target + selector.maxChange ≤ u64Max) :
    selector.SelectsRight candidates target feerate ↔
      selector.InRange candidates target feerate := by
  constructor
  · rintro ⟨chosen, selected, _⟩
    exact
      ((selector.select_eq_ok positive few dust least most).mp selected).1
  · intro inRange
    have selected :=
      (selector.select_eq_ok positive few dust least most).mpr
        ⟨inRange, rfl⟩
    obtain ⟨reaches, misses⟩ :=
      @pick_spec selector feerate target
        (candidates.filter (economical feerate))
    refine ⟨_, selected, ⟨?_, ?_⟩, ?_⟩
    · intro some
      obtain ⟨selection, picked⟩ := Option.ne_none_iff_exists'.mp some
      obtain ⟨subset, sub, _, above, _⟩ := reaches selection picked
      exact ⟨subset, sub, above⟩
    · rintro ⟨subset, sub, above⟩ none
      by_cases empty : subset = []
      · -- A target of nothing is left by any coin.
        subst empty
        have whole :=
          misses none _ (List.Sublist.refl _)
            (List.ne_nil_of_length_pos positive)
        simp only [leftBy, List.map_nil, List.sum_nil] at above whole
        omega
      · exact absurd above (by have := misses none subset sub empty; omega)
    · intro selection picked
      obtain ⟨subset, sub, _, above, rfl⟩ := reaches selection picked
      have kept : subset.Sublist candidates :=
        sub.trans List.filter_sublist
      have apart : (subset.map Coin.outpoint).Nodup :=
        distinct.sublist (kept.map _)
      refine
        ⟨subset, sub, above, rfl, apart, rfl, rfl, ?_⟩
      rw [picked] at selected
      have some : candidates ≠ [] := by
        rintro rfl
        simp at positive
      exact selectCoins_of_select selector distinct some kept selected

/-- Two coins pay for one payment at 1.5 satoshis a virtual byte. -/
theorem selects_right_two_coins :
    default.SelectsRight [TxSample.coin 1 60000, TxSample.coin 2 40000] 90000
      1500 := by
  refine
    (selects_right_iff default [TxSample.coin 1 60000, TxSample.coin 2 40000]
      90000 1500 (by decide) (by decide) (by decide) (by decide) (by decide)
      (by decide)).mpr
      ⟨⟨?_, by decide⟩, by decide, Or.inr (by decide)⟩
  intro coin member
  rcases List.mem_pair.mp member with rfl | rfl
  · exact ⟨by decide, by decide, by decide⟩
  · exact ⟨by decide, by decide, by decide⟩

/-- With a least change above the most change the selector panics, although its
only coin reaches the target. -/
theorem unordered_change_panics :
    let selector : DefaultCoinSelector := ⟨10, 5, 1⟩
    let candidates := [TxSample.coin 1 100000]
    (candidates.map Coin.outpoint).Nodup ∧
      (candidates.filter (economical 1000)).length = 1 ∧
      1000 ≤ leftBy 1000 (candidates.filter (economical 1000)) ∧
      selector.select candidates 1000 1000 =
        .error
          (.panic
            (.expect "range start is greater than range end in BTreeMap")) ∧
      ¬ selector.SelectsRight candidates 1000 1000 := by
  have panics :
      DefaultCoinSelector.select ⟨10, 5, 1⟩ [TxSample.coin 1 100000] 1000
          1000 =
        .error
          (.panic
            (.expect "range start is greater than range end in BTreeMap")) :=
    by decide
  refine ⟨by decide, by decide, by decide, panics, ?_⟩
  rintro ⟨chosen, selected, _⟩
  rw [panics] at selected
  cases selected

end DefaultCoinSelector

end Bwk.Tx
