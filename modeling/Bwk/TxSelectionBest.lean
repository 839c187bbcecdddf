import Bwk.TxSelectionSound

namespace Bwk.Tx

/-!
# When the selection is the best of its band

Outside the exact range the selector takes the first selection with the fewest
inputs of a band of amounts.  The map has one selection for each amount, of the
last subset that leaves it, and the comparison of fees compares a selection with
itself.  So the selection is the best of its band exactly when some best subset
is the last of its amount and no last subset of a smaller amount has as few
coins.
-/

variable {α : Type} {cost key : α → Nat} {list : List α} {least : α}

/-- In a list sorted by a key, what comes before the first least element is
greater. -/
theorem lt_of_argmin_of_sorted
    (sorted : list.Pairwise (fun first second => key first < key second))
    (found : list.argmin cost = some least) :
    ∀ other ∈ list, key other < key least → cost least < cost other := by
  induction list generalizing least with
  | nil => cases found
  | cons first rest inductionHypothesis =>
      rw [List.pairwise_cons] at sorted
      intro other member before
      rw [List.argmin_cons] at found
      cases later : rest.argmin cost with
      | none =>
          rw [later] at found
          cases found
          rw [List.argmin_eq_none.mp later, List.mem_singleton] at member
          subst member
          omega
      | some candidate =>
          rw [later] at found
          by_cases less : cost candidate < cost first
          · simp only [if_pos less] at found
            cases found
            rcases List.mem_cons.mp member with rfl | member
            · exact less
            · exact inductionHypothesis sorted.2 later other member before
          · simp only [if_neg less] at found
            cases found
            rcases List.mem_cons.mp member with rfl | member
            · omega
            · have := sorted.1 other member
              omega

theorem argmin_eq_some_iff_of_sorted
    (sorted : list.Pairwise (fun first second => key first < key second)) :
    list.argmin cost = some least ↔
      least ∈ list ∧
        ∀ other ∈ list,
          cost least ≤ cost other ∧
            (key other < key least → cost least < cost other) := by
  have distinct : (list.map key).Nodup :=
    List.pairwise_map.mpr (sorted.imp Nat.ne_of_lt)
  constructor
  · intro found
    refine ⟨List.argmin_mem found, fun other member => ⟨?_, ?_⟩⟩
    · exact List.le_of_mem_argmin member found
    · exact lt_of_argmin_of_sorted sorted found other member
  · rintro ⟨member, minimal⟩
    cases found : list.argmin cost with
    | none =>
        rw [List.argmin_eq_none.mp found] at member
        cases member
    | some other =>
        have listed := List.argmin_mem found
        have above := minimal other listed
        have below := List.le_of_mem_argmin member found
        have before := lt_of_argmin_of_sorted sorted found least member
        have same : key other = key least := by
          rcases Nat.lt_trichotomy (key other) (key least) with less | same |
            greater
          · have := above.2 less
            omega
          · exact same
          · have := before greater
            omega
        rw [List.inj_on_of_nodup_map distinct listed member same]

/-- A band of amounts the selector looks at for want of an exact one. -/
inductive Band where
  | change
  | above
  | default
  deriving Repr, DecidableEq

namespace DefaultCoinSelector

variable (selector : DefaultCoinSelector)

def within (target : Nat) : Band → Nat → Bool
  | .change, amount =>
      target + selector.minChange ≤ amount &&
        amount < target + selector.maxChange
  | .above, amount => target + selector.maxChange ≤ amount
  | .default, amount => target ≤ amount

/-- The amounts with no change to speak of. -/
def withinExact (target amount : Nat) : Bool :=
  target ≤ amount && amount < target + selector.dust

end DefaultCoinSelector

/-- The selections whose amounts are accepted, in the order of their
amounts. -/
def selectionsWithin
    (selections : BTreeMap Nat Selection)
    (accepts : Nat → Bool) : List Selection :=
  (selections.toList.filter (fun entry => accepts entry.1)).map Prod.snd

variable {feerate : Nat} {coins : List Coin} {accepts : Nat → Bool}
variable {selection : Selection}

theorem mem_selectionsWithin
    {selections : BTreeMap Nat Selection} :
    selection ∈ selectionsWithin selections accepts ↔
      ∃ amount, accepts amount = true ∧
        selections[amount]? = some selection := by
  simp only [selectionsWithin, List.mem_map, List.mem_filter, Prod.exists,
    exists_eq_right, Std.ExtTreeMap.mem_toList_iff_getElem?_eq_some]
  constructor
  · rintro ⟨amount, looked, accepted⟩
    exact ⟨amount, accepted, looked⟩
  · rintro ⟨amount, accepted, looked⟩
    exact ⟨amount, looked, accepted⟩

theorem selectionsWithin_sorted
    {feerate : Nat}
    {subsets : List (List Coin)}
    (accepts : Nat → Bool) :
    (selectionsWithin (combinationsOf feerate subsets) accepts).Pairwise
      (fun first second => first.spendableAmount < second.spendableAmount) := by
  rw [selectionsWithin, List.pairwise_map]
  have ordered :
      ((combinationsOf feerate subsets).toList.filter
          fun entry => accepts entry.1).Pairwise
        (fun first second => compare first.1 second.1 = .lt) :=
    (Std.ExtTreeMap.ordered_keys_toList).filter _
  refine ordered.imp_of_mem ?_
  intro first second firstListed secondListed before
  have amountOf :
      ∀ entry ∈ (combinationsOf feerate subsets).toList,
        entry.2.spendableAmount = entry.1 := by
    intro entry listed
    obtain ⟨subset, _, left, same⟩ :=
      selectionOf_of_getElem?
        (Std.ExtTreeMap.mem_toList_iff_getElem?_eq_some.mp listed)
    rw [← same, ← left]
    rfl
  rw [amountOf first (List.mem_of_mem_filter firstListed),
    amountOf second (List.mem_of_mem_filter secondListed)]
  exact Nat.compare_eq_lt.mp before

/-- The last subset, in the order of the masks, that leaves an amount. -/
def lastLeaving
    (feerate : Nat)
    (coins : List Coin)
    (amount : Nat) : Option (List Coin) :=
  ((nonemptySubsets coins).filter
    fun subset => leftBy feerate subset = amount).getLast?

/-- No subset whose amount is accepted has fewer coins, and none with as many
costs less. -/
def LeastAmong
    (accepts : Nat → Bool)
    (feerate : Nat)
    (coins : List Coin)
    (inputs fees : Nat) : Prop :=
  ∀ subset ∈ coins.sublists,
    accepts (leftBy feerate subset) = true →
      inputs ≤ subset.length ∧
        (subset.length = inputs → fees ≤ feesOf feerate subset)

instance
    (accepts : Nat → Bool)
    (feerate : Nat)
    (coins : List Coin)
    (inputs fees : Nat) :
    Decidable (LeastAmong accepts feerate coins inputs fees) :=
  inferInstanceAs (Decidable (∀ subset ∈ coins.sublists, _ → _))

/-- A subset that is the best of the accepted amounts is the last of its amount,
and every subset that is the last of a smaller one has more coins. -/
structure Survives
    (accepts : Nat → Bool)
    (feerate : Nat)
    (coins best : List Coin) : Prop where
  member : best ∈ nonemptySubsets coins
  accepted : accepts (leftBy feerate best) = true
  least :
    LeastAmong accepts feerate coins best.length (feesOf feerate best)
  last : lastLeaving feerate coins (leftBy feerate best) = some best
  first :
    ∀ subset ∈ nonemptySubsets coins,
      accepts (leftBy feerate subset) = true →
        leftBy feerate subset < leftBy feerate best →
          lastLeaving feerate coins (leftBy feerate subset) = some subset →
            best.length < subset.length

theorem mem_selectionsWithin_combinationsOf :
    selection ∈
        selectionsWithin (combinationsOf feerate (nonemptySubsets coins))
          accepts ↔
      ∃ subset ∈ nonemptySubsets coins,
        accepts (leftBy feerate subset) = true ∧
          lastLeaving feerate coins (leftBy feerate subset) = some subset ∧
          selectionOf feerate subset = selection := by
  rw [mem_selectionsWithin]
  constructor
  · rintro ⟨amount, accepted, looked⟩
    rw [getElem?_combinationsOf, Option.map_eq_some_iff] at looked
    obtain ⟨subset, last, same⟩ := looked
    have listed := List.mem_of_getLast? last
    rw [List.mem_filter, decide_eq_true_eq] at listed
    obtain ⟨member, rfl⟩ := listed
    exact ⟨subset, member, accepted, last, same⟩
  · rintro ⟨subset, member, accepted, last, same⟩
    refine ⟨_, accepted, ?_⟩
    rw [getElem?_combinationsOf]
    exact Option.map_eq_some_iff.mpr ⟨subset, last, same⟩

/-- The first selection with the fewest inputs is the best exactly when a best
subset survives. -/
theorem fewestInputs_least_iff
    (found :
      fewestInputs
          (selectionsWithin (combinationsOf feerate (nonemptySubsets coins))
            accepts) =
        some selection) :
    LeastAmong accepts feerate coins selection.outpoints.length
        selection.fees ↔
      ∃ best, Survives accepts feerate coins best := by
  have sorted :=
    @selectionsWithin_sorted feerate (nonemptySubsets coins) accepts
  have inputsOf (subset : List Coin) :
      (selectionOf feerate subset).outpoints.length = subset.length :=
    List.length_map _
  obtain ⟨member, minimal⟩ :=
    (argmin_eq_some_iff_of_sorted sorted).mp found
  constructor
  · intro least
    obtain ⟨best, listed, accepted, last, rfl⟩ :=
      mem_selectionsWithin_combinationsOf.mp member
    refine ⟨best, listed, accepted, ?_, last, ?_⟩
    · rw [inputsOf] at least
      exact least
    · intro subset subListed subAccepted before subLast
      have kept :=
        (minimal (selectionOf feerate subset)
          (mem_selectionsWithin_combinationsOf.mpr
            ⟨subset, subListed, subAccepted, subLast, rfl⟩)).2 before
      rw [inputsOf, inputsOf] at kept
      exact kept
  · rintro ⟨best, survives⟩
    have kept :
        fewestInputs
            (selectionsWithin
              (combinationsOf feerate (nonemptySubsets coins)) accepts) =
          some (selectionOf feerate best) := by
      rw [fewestInputs, argmin_eq_some_iff_of_sorted sorted]
      refine
        ⟨mem_selectionsWithin_combinationsOf.mpr
          ⟨best, survives.member, survives.accepted, survives.last, rfl⟩, ?_⟩
      intro other listed
      obtain ⟨subset, subListed, subAccepted, subLast, rfl⟩ :=
        mem_selectionsWithin_combinationsOf.mp listed
      rw [inputsOf, inputsOf]
      exact
        ⟨(survives.least subset (List.mem_of_mem_filter subListed)
            subAccepted).1,
          fun before =>
            survives.first subset subListed subAccepted before subLast⟩
    have same : selection = selectionOf feerate best := by
      rw [found] at kept
      exact Option.some.inj kept
    rw [same, inputsOf]
    exact survives.least

namespace DefaultCoinSelector

variable (selector : DefaultCoinSelector)

/-- The selector finds nothing with no change to speak of, and this is the first
band that has a selection. -/
def PicksFrom
    (selections : BTreeMap Nat Selection)
    (target : Nat)
    (band : Band) : Prop :=
  selectionsWithin selections (selector.withinExact target) = [] ∧
    selectionsWithin selections (selector.within target band) ≠ [] ∧
    match band with
    | .change => True
    | .above =>
        selectionsWithin selections (selector.within target .change) = []
    | .default =>
        selectionsWithin selections (selector.within target .change) = [] ∧
          selectionsWithin selections (selector.within target .above) = []

instance
    (selections : BTreeMap Nat Selection)
    (target : Nat)
    (band : Band) :
    Decidable (selector.PicksFrom selections target band) := by
  unfold PicksFrom
  cases band <;> infer_instance

variable {selections : BTreeMap Nat Selection}

/-- What is picked from a band is its first selection with the fewest
inputs. -/
theorem pick_of_picksFrom
    {target : Nat}
    {band : Band}
    (picks : selector.PicksFrom selections target band) :
    selector.pick selections target =
      fewestInputs
        (selectionsWithin selections (selector.within target band)) := by
  obtain ⟨noExact, some, earlier⟩ := picks
  have first :
      selectionsBetween selections target (target + selector.dust) = [] :=
    noExact
  have found :
      fewestInputs
          (selectionsWithin selections (selector.within target band)) ≠
        none :=
    fun none => some (List.argmin_eq_none.mp none)
  rw [pick, first, List.head?_nil, Option.none_or]
  -- The three ranges are tried in the order of the bands.
  show
    (fewestInputs
        (selectionsWithin selections (selector.within target .change))).or
      ((fewestInputs
          (selectionsWithin selections (selector.within target .above))).or
        (fewestInputs
          (selectionsWithin selections (selector.within target .default)))) =
      _
  cases band with
  | change =>
      obtain ⟨selection, least⟩ := Option.ne_none_iff_exists'.mp found
      rw [least, Option.some_or]
  | above =>
      obtain ⟨selection, least⟩ := Option.ne_none_iff_exists'.mp found
      rw [earlier, least]
      rfl
  | default =>
      rw [earlier.1, earlier.2]
      rfl

theorem pick_of_choose
    {target feerate : Nat}
    {chosen : Option Selection}
    (noExact :
      selectionsWithin selections (selector.withinExact target) = [])
    (ran : selector.choose selections target feerate = .ok chosen) :
    selector.pick selections target = chosen := by
  have first :
      selectionsBetween selections target (target + selector.dust) = [] :=
    noExact
  have finished :
      choose.finish selector selections target none = .ok chosen := by
    obtain ⟨upper, added, ran⟩ := bind_eq_ok.mp ran
    obtain ⟨_, rfl⟩ := addU64_eq_ok.mp added
    rw [first, List.head?_nil] at ran
    by_cases equal : target > selector.minChange ∧ feerate < 10000
    · rw [if_pos equal] at ran
      obtain ⟨_, _, ran⟩ := bind_eq_ok.mp ran
      exact ran
    · rw [if_neg equal] at ran
      exact ran
  obtain ⟨low, least, finished'⟩ := bind_eq_ok.mp finished
  obtain ⟨high, most, _⟩ := bind_eq_ok.mp finished'
  obtain ⟨least, _⟩ := addU64_eq_ok.mp least
  obtain ⟨most, _⟩ := addU64_eq_ok.mp most
  obtain ⟨_, picked⟩ := (selector.finish_eq_ok least most).mp finished
  rw [pick, first, List.head?_nil]
  exact picked

/-- What the selector picks from a band has the fewest inputs of the band, and
the least fees for as many, exactly when some best subset survives. -/
theorem picked_is_least_iff
    (candidates : List Coin)
    (target feerate : Nat)
    (band : Band)
    (selections : BTreeMap Nat Selection)
    (selection : Selection)
    (combined :
      allCoinsCombinations candidates feerate = .ok (some selections))
    (picks : selector.PicksFrom selections target band)
    (selected :
      selector.select candidates target feerate = .ok (some selection)) :
    LeastAmong (selector.within target band) feerate
        (candidates.filter (economical feerate))
        selection.outpoints.length selection.fees ↔
      ∃ best,
        Survives (selector.within target band) feerate
          (candidates.filter (economical feerate)) best := by
  have few := (allCoinsCombinations_ok combined).1
  have positive := some_economical combined
  obtain ⟨_, same⟩ := (allCoinsCombinations_eq_ok positive few).mp combined
  have ran :
      selector.choose selections target feerate = .ok (some selection) := by
    rw [select, combined, ok_bind] at selected
    exact selected
  have picked := selector.pick_of_choose picks.1 ran
  rw [selector.pick_of_picksFrom picks, ← Option.some.inj same] at picked
  exact fewestInputs_least_iff picked

/-- Of two coins in the change band that cost as much the first is the best. -/
theorem picked_is_least_two_coins :
    LeastAmong (default.within 40000 .change) 1000
      ([TxSample.coin 1 100000, TxSample.coin 2 200000].filter
        (economical 1000)) 1 58 := by
  have sums :
      SumsFit 1000 [TxSample.coin 1 100000, TxSample.coin 2 200000] := by
    refine ⟨?_, by decide⟩
    intro coin member
    rcases List.mem_pair.mp member with rfl | rfl
    · exact ⟨by decide, by decide, by decide⟩
    · exact ⟨by decide, by decide, by decide⟩
  refine
    (picked_is_least_iff default
      [TxSample.coin 1 100000, TxSample.coin 2 200000] 40000 1000 .change _
      ⟨99942, 58, [⟨1, 0⟩]⟩
      ((allCoinsCombinations_eq_ok (by decide) (by decide)).mpr ⟨sums, rfl⟩)
      (by decide) (by decide)).mpr
      ⟨[TxSample.coin 1 100000], by decide, by decide, by decide, by decide,
        by decide⟩

/-- Of two coins in the change band the selector takes the smaller one, which
costs more to spend. -/
theorem dearer_coin_picked :
    let dear : Coin :=
      { TxSample.coin 1 100000 with satisfactionSize := 108 }
    let candidates := [dear, TxSample.coin 2 200000]
    let selections :=
      combinationsOf 1000 (nonemptySubsets (candidates.filter (economical 1000)))
    allCoinsCombinations candidates 1000 = .ok (some selections) ∧
      default.PicksFrom selections 40000 .change ∧
      default.select candidates 40000 1000 =
        .ok (some ⟨99932, 68, [⟨1, 0⟩]⟩) ∧
      default.within 40000 .change
          (leftBy 1000 [TxSample.coin 2 200000]) = true ∧
      feesOf 1000 [TxSample.coin 2 200000] = 58 ∧
      ¬ LeastAmong (default.within 40000 .change) 1000
        (candidates.filter (economical 1000)) 1 68 := by
  intro dear candidates selections
  have sums : SumsFit 1000 candidates := by
    refine ⟨?_, by decide⟩
    intro coin member
    rcases List.mem_pair.mp member with rfl | rfl
    · exact ⟨by decide, by decide, by decide⟩
    · exact ⟨by decide, by decide, by decide⟩
  refine
    ⟨(allCoinsCombinations_eq_ok (by decide) (by decide)).mpr ⟨sums, rfl⟩,
      by decide, by decide, by decide, by decide, ?_⟩
  intro least
  have cheaper :=
    (least [TxSample.coin 2 200000] (by decide) (by decide)).2 (by decide)
  exact absurd cheaper (by decide)

end DefaultCoinSelector

end Bwk.Tx
