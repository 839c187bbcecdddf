import Bwk.HeaderWrites

namespace Bwk

/-!
# Ranges of judged headers

What the writes keep is always of one kind: the stored chain is empty, or a
contiguous range from a retarget boundary up in which every header satisfies
some judgement on the headers below it.  The closure under the writes is proved
here for any such judgement, so that an invariant only has to say what it asks
of one header.
-/

/-- A judgement on the header at a height of a chain that starts at `low`. -/
abbrev RowRule (Raw : Type) :=
  HeaderMap Raw → Nat → Nat → Header → Prop

/-- A range from `low` to `high` whose headers all satisfy `row`. -/
structure RangeOf
    (btc : Bitcoin Raw)
    (network : Network)
    (row : RowRule Raw)
    (chain : HeaderMap Raw)
    (low high : Nat) : Prop where
  ordered : low ≤ high
  covers : chain.Covers low high
  boundary : low % retargetInterval btc network = 0
  rows :
    ∀ (height : Nat) raw, chain[height]? = some raw →
      ∃ header,
        btc.deserialize raw = some header ∧ row chain low height header

/-- Nothing, or a range of judged headers. -/
def ChainOf
    (btc : Bitcoin Raw)
    (network : Network)
    (row : RowRule Raw)
    (chain : HeaderMap Raw) : Prop :=
  chain = ∅ ∨ ∃ low high, RangeOf btc network row chain low high

/-- The judgement reads only the rows below a header. -/
def Downward (row : RowRule Raw) : Prop :=
  ∀ ⦃chain other : HeaderMap Raw⦄ ⦃low height : Nat⦄ ⦃header : Header⦄,
    row chain low height header →
      (∀ below : Nat, below < height → chain[below]? = other[below]?) →
      row other low height header

/-- What a write asks of a header is at least the judgement. -/
def Implied (rules : Rules Raw) (row : RowRule Raw) : Prop :=
  ∀ ⦃chain : HeaderMap Raw⦄ ⦃low height nowSecs : Nat⦄
    ⦃header : Header⦄,
    rules.clocks nowSecs →
      replayRow rules.btc rules.network nowSecs low
        (decodeAncestors rules.btc chain height
          (retargetInterval rules.btc rules.network))
        height header = .ok () →
      row chain low height header

section Closure

variable {rules : Rules Raw} {row : RowRule Raw}

variable {chain : HeaderMap Raw} {raw : Raw} {low high : Nat}

private theorem rangeOf_anchor
    {height : Nat}
    (implied : Implied rules row)
    (anchored : rules.Anchors height raw) :
    RangeOf rules.btc rules.network row
      ((∅ : HeaderMap Raw).insert height raw) height height := by
  obtain ⟨-, boundary, header, nowSecs, decoded, clock, judged⟩ := anchored
  refine ⟨Nat.le_refl height, BTreeMap.covers_singleton height raw,
    boundary, ?_⟩
  intro other stored present
  rw [BTreeMap.getElem?_insert_eq] at present
  split at present
  · rename_i same
    subst same
    cases present
    rw [← decodeAncestors_floor rules.btc
      (BTreeMap.covers_singleton height raw)] at judged
    exact ⟨header, decoded, implied clock judged⟩
  · simp at present

private theorem rangeOf_extend
    (downward : Downward row)
    (implied : Implied rules row)
    (range : RangeOf rules.btc rules.network row chain low high)
    (judged : rules.Judged chain (high + 1) raw) :
    RangeOf rules.btc rules.network row (chain.insert (high + 1) raw) low
      (high + 1) := by
  have ordered := range.ordered
  have unchanged :
      ∀ below : Nat, below < high + 1 →
        chain[below]? =
          (Std.ExtTreeMap.insert chain (high + 1) raw)[below]? := by
    intro below under
    have different : ¬ high + 1 = below := by omega
    simp [different]
  refine ⟨by omega, range.covers.insertAbove ordered raw, range.boundary,
    ?_⟩
  intro height stored present
  rw [BTreeMap.getElem?_insert_eq] at present
  split at present
  · rename_i same
    subst same
    cases present
    obtain ⟨header, nowSecs, decoded, clock, accepted⟩ := judged
    refine ⟨header, decoded, downward (implied clock ?_) unchanged⟩
    rw [replayRow, if_neg (by omega), if_pos (by omega)]
    exact accepted
  · obtain ⟨header, decoded, valid⟩ := range.rows height stored present
    have within := (range.covers height).mp
      (BTreeMap.mem_iff_getElem?.mpr ⟨stored, present⟩)
    exact ⟨header, decoded,
      downward valid (fun below under => unchanged below (by omega))⟩

private theorem rangeOf_cut
    {low high forkHeight : Nat}
    (downward : Downward row)
    (range : RangeOf rules.btc rules.network row chain low high)
    (above : low ≤ forkHeight)
    (below : forkHeight ≤ high) :
    RangeOf rules.btc rules.network row
      (chain.retain (fun height _ => height ≤ forkHeight)) low
      forkHeight := by
  refine ⟨above, range.covers.retainBelow below, range.boundary, ?_⟩
  intro height raw present
  rw [BTreeMap.getElem?_retain, Option.filter_eq_some_iff] at present
  obtain ⟨stored, kept⟩ := present
  obtain ⟨header, decoded, valid⟩ := range.rows height raw stored
  refine ⟨header, decoded, downward valid ?_⟩
  intro under lower
  have keptUnder : under ≤ forkHeight := by
    simp only [decide_eq_true_eq] at kept
    omega
  rw [BTreeMap.getElem?_retain]
  cases chain[under]? <;> simp [keptUnder, Option.filter]

/--
Lowering the floor of a range leaves a range, if the headers above the old
floor keep the judgement on the longer chain.
-/
theorem RangeOf.lower
    {chain lowered range : HeaderMap Raw}
    {low floor high nowSecs : Nat}
    (downward : Downward row)
    (implied : Implied rules row)
    (valid : RangeOf rules.btc rules.network row chain floor high)
    (lower : Lower rules chain lowered low floor high range nowSecs)
    (carried :
      (∀ (height : Nat) raw, chain[height]? = some raw →
        lowered[height]? = some raw) →
      ∀ height raw header, floor < height → chain[height]? = some raw →
        rules.btc.deserialize raw = some header →
        row chain floor height header → row lowered low height header) :
    RangeOf rules.btc rules.network row lowered low high := by
  have below := lower.below
  have ordered := lower.ordered
  have replays :=
    (replayValidate_eq_ok_iff lower.rangeCovers below).mp lower.replays
  have upToFloor :
      ∀ height : Nat, height ≤ floor → lowered[height]? = range[height]? := by
    intro height under
    rw [lower.rows]
    split
    · rfl
    · have atFloor : height = floor := by omega
      rw [atFloor, lower.sameFloor]
  have aboveFloor :
      ∀ height : Nat, floor ≤ height → lowered[height]? = chain[height]? := by
    intro height atLeast
    rw [lower.rows, if_neg (by omega)]
  have extends_ :
      ∀ (height : Nat) raw, chain[height]? = some raw →
        lowered[height]? = some raw := by
    intro height raw present
    have within := (lower.covers height).mp
      (BTreeMap.mem_iff_getElem?.mpr ⟨raw, present⟩)
    rw [aboveFloor height within.1, present]
  refine ⟨by omega, ?_, lower.boundary, ?_⟩
  · intro height
    by_cases under : height ≤ floor
    · have inRange := lower.rangeCovers height
      rw [BTreeMap.mem_iff_getElem?] at inRange ⊢
      rw [upToFloor height under, inRange]
      omega
    · have inChain := lower.covers height
      rw [BTreeMap.mem_iff_getElem?] at inChain ⊢
      rw [aboveFloor height (by omega), inChain]
      omega
  · intro height raw present
    by_cases under : height ≤ floor
    · rw [upToFloor height under] at present
      obtain ⟨header, decoded, judged⟩ := replays height raw present
      refine ⟨header, decoded,
        downward (implied lower.clock judged) ?_⟩
      intro lowerHeight further
      exact (upToFloor lowerHeight (by omega)).symm
    · rw [aboveFloor height (by omega)] at present
      obtain ⟨header, decoded, inPlace⟩ := valid.rows height raw present
      exact ⟨header, decoded,
        carried extends_ height raw header (by omega) present decoded
          inPlace⟩

theorem ChainOf.range
    {btc : Bitcoin Raw}
    {network : Network}
    (valid : ChainOf btc network row chain)
    (covers : chain.Covers low high)
    (ordered : low ≤ high) :
    RangeOf btc network row chain low high := by
  rcases valid with empty | ⟨low', high', range⟩
  · exact (covers.ne_empty ordered empty).elim
  · have sameLow := covers.firstKey?_eq ordered
    have sameHigh := covers.lastKey?_eq ordered
    rw [range.covers.firstKey?_eq range.ordered,
      Option.some.injEq] at sameLow
    rw [range.covers.lastKey?_eq range.ordered,
      Option.some.injEq] at sameHigh
    subst sameLow sameHigh
    exact range

theorem ChainOf.grow
    (rules : Rules Raw)
    {chain after : HeaderMap Raw}
    (downward : Downward row)
    (implied : Implied rules row)
    (valid : ChainOf rules.btc rules.network row chain)
    (grown : Grow rules chain after) :
    ChainOf rules.btc rules.network row after := by
  cases grown with
  | clear =>
      exact .inl rfl
  | anchor anchored _ =>
      exact .inr ⟨_, _, rangeOf_anchor implied anchored⟩
  | extend covers ordered judged _ =>
      exact .inr ⟨_, _,
        rangeOf_extend downward implied (valid.range covers ordered)
          judged⟩
  | cut covers above below =>
      exact .inr ⟨_, _,
        rangeOf_cut downward
          (valid.range covers (Nat.le_trans above below)) above below⟩

theorem ChainOf.grows
    (rules : Rules Raw)
    {chain after : HeaderMap Raw}
    (downward : Downward row)
    (implied : Implied rules row)
    (valid : ChainOf rules.btc rules.network row chain)
    (grown : Grows rules chain after) :
    ChainOf rules.btc rules.network row after := by
  induction grown with
  | refl =>
      exact valid
  | tail _ last inductionHypothesis =>
      exact inductionHypothesis.grow rules downward implied last

end Closure

end Bwk
