import Bwk.HeaderCheckpoint

namespace Bwk

/-!
# Writes that go through

The triples of the other modules say what a write may leave.  The ones here say
that it succeeds: with a working file, a contiguous result, headers that pass
the validator and a held checkpoint, the mutators return and store exactly the
headers of the chain they are fed.  A chain is a function from heights to raw
headers; what is stored of it is a table.
-/

/-- The headers of a chain below `height`, at most `max`, not below `low`. -/
def window
    (headers : Nat → Header)
    (low height max : Nat) : List Header :=
  (List.range' (Max.max low (height - max))
    (height - Max.max low (height - max))).map headers

theorem slideWindow_window
    (headers : Nat → Header)
    {low height max : Nat}
    (above : low ≤ height)
    (positive : 0 < max) :
    slideWindow max (window headers low height max) (headers height) =
      window headers low (height + 1) max := by
  have pushed :
      window headers low height max ++ [headers height] =
        (List.range' (Max.max low (height - max))
          (height - Max.max low (height - max) + 1)).map headers := by
    have last :
        Max.max low (height - max) +
            1 * (height - Max.max low (height - max)) = height := by
      omega
    rw [List.range'_concat, List.map_append, last]
    rfl
  rw [slideWindow, pushed, List.length_map, List.length_range']
  split
  · rename_i full
    have first :
        Max.max low (height + 1 - max) = Max.max low (height - max) + 1 := by
      omega
    rw [window, first, List.range'_succ, List.map_cons, List.tail_cons]
    congr 2
    omega
  · rename_i short
    have first :
        Max.max low (height + 1 - max) = Max.max low (height - max) := by
      omega
    rw [window, first]
    congr 2
    omega

private theorem decodeAncestors_tabulate_end
    (btc : Bitcoin Raw)
    (served : Nat → Raw)
    (headers : Nat → Header)
    (low count : Nat)
    {max : Nat}
    (positive : 0 < max)
    (decodes :
      ∀ height, low ≤ height → height < low + count →
        btc.deserialize (served height) = some (headers height)) :
    decodeAncestors btc (BTreeMap.tabulate served low count) (low + count)
        max =
      window headers low (low + count) max := by
  induction count with
  | zero =>
      rw [decodeAncestors_of_gap btc]
      · have atFloor : low + 0 - Max.max low (low + 0 - max) = 0 := by
          omega
        rw [window, atFloor]
        rfl
      · intro below adjacent
        rw [BTreeMap.getElem?_tabulate, if_neg (by omega)]
  | succ count inductionHypothesis =>
      rw [BTreeMap.tabulate_succ, ← Nat.add_assoc,
        decodeAncestors_insert btc _ positive
          (decodes (low + count) (by omega) (by omega)),
        inductionHypothesis (fun height above below =>
          decodes height above (by omega)),
        slideWindow_window headers (by omega) positive]

theorem decodeAncestors_tabulate
    (btc : Bitcoin Raw)
    (served : Nat → Raw)
    (headers : Nat → Header)
    {low count height max : Nat}
    (positive : 0 < max)
    (above : low ≤ height)
    (below : height ≤ low + count)
    (decodes :
      ∀ height, low ≤ height → height < low + count →
        btc.deserialize (served height) = some (headers height)) :
    decodeAncestors btc (BTreeMap.tabulate served low count) height max =
      window headers low height max := by
  have whole :=
    decodeAncestors_tabulate_end btc served headers low (height - low)
      positive
      (fun other fromLow under => decodes other fromLow (by omega))
  rw [show low + (height - low) = height by omega] at whole
  rw [← whole]
  apply collectAncestors_congr
  intro other under
  rw [BTreeMap.getElem?_tabulate, BTreeMap.getElem?_tabulate]
  by_cases fromLow : low ≤ other
  · rw [if_pos (by omega), if_pos (by omega)]
  · rw [if_neg (by omega), if_neg (by omega)]

section Locked

variable {Raw : Type}

/-- The lock guards `chain`, and its file can be written. -/
structure Holding
    (chain : HeaderMap Raw)
    (inner : Inner (HeaderBackend Raw) Raw) : Prop where
  synced : Synced inner
  stores : inner.chain = chain

theorem insertRow_accepts
    (chain : HeaderMap Raw)
    (height : Nat)
    (raw : Raw) :
    Holds (Holding chain)
      (insertRow height raw : Locked (HeaderBackend Raw) Raw Unit)
      (fun _ => Holding (chain.insert height raw)) (fun _ _ => False) := by
  apply Holds.modify
  rintro inner ⟨⟨coherent, noFaults⟩, rfl⟩
  exact ⟨⟨coherent.insert height raw, noFaults⟩, rfl⟩

theorem setValidationState_accepts
    (chain : HeaderMap Raw)
    (state : HeaderValidationState) :
    Holds (Holding chain)
      (setValidationState state : Locked (HeaderBackend Raw) Raw Unit)
      (fun _ => Holding chain) (fun _ _ => False) := by
  apply Holds.modify
  rintro inner ⟨⟨coherent, noFaults⟩, rfl⟩
  exact ⟨⟨coherent, noFaults⟩, rfl⟩

theorem flushRows_ok
    {inner : Inner (HeaderBackend Raw) Raw}
    {low high : Nat}
    (coherent : inner.store.Coherent)
    (taken : (nextWrite inner.store.backend.faults).1 = false)
    (covers : inner.chain.Covers low high)
    (ordered : low ≤ high) :
    ∃ after,
      (flushRows : Locked (HeaderBackend Raw) Raw Unit) inner =
          .ok () after ∧
        after.chain = inner.chain ∧
        after.store.backend.rows = inner.chain := by
  have written :
      (PersistenceBackend.flushBatch inner.store.backend
        inner.store.pending inner.store.removed.toList).1 = .ok () := by
    apply HeaderBackend.flushBatch_ok taken _ ordered
    rw [show inner.store.backend.rows =
      PersistenceBackend.rows inner.store.backend from rfl,
      coherent.pending_rows]
    exact covers
  obtain ⟨store, flushed, kept, rows⟩ := coherent.flush_ok written
  refine ⟨{ inner with store := store }, ?_, kept, rows⟩
  simp only [flushRows, flushed]

variable {chain : HeaderMap Raw} {pre : Inner (HeaderBackend Raw) Raw → Prop}
variable {raw : Raw}

theorem flushRows_writes
    {low high : Nat}
    (covers : chain.Covers low high)
    (ordered : low ≤ high) :
    Holds (Holding chain) (flushRows : Locked (HeaderBackend Raw) Raw Unit)
      (fun _ inner =>
        Holding chain inner ∧ inner.store.backend.rows = chain)
      (fun _ _ => False) := by
  rintro inner ⟨synced, rfl⟩
  obtain ⟨after, flushed, kept, rows⟩ :=
    flushRows_ok synced.coherent (by rw [synced.noFaults]; rfl) covers
      ordered
  rw [flushed]
  exact ⟨⟨(flushRows_synced.ok synced flushed), kept⟩, rows⟩

theorem flushRows_accepts
    {low high : Nat}
    (covers : chain.Covers low high)
    (ordered : low ≤ high) :
    Holds (Holding chain) (flushRows : Locked (HeaderBackend Raw) Raw Unit)
      (fun _ => Holding chain) (fun _ _ => False) :=
  Holds.conseq (flushRows_writes covers ordered)
    (fun _ holding => holding) (fun _ _ written => written.1)
    (fun _ _ impossible => impossible)

theorem holdCheckpoint_accepts
    {btc : Bitcoin Raw}
    {checkpoint : Option Checkpoint}
    {height : Nat}
    (held : holdsCheckpoint btc checkpoint height raw = true) :
    Holds pre
      (holdCheckpoint btc checkpoint height raw :
        Locked (HeaderBackend Raw) Raw Unit)
      (fun _ => pre) (fun _ _ => False) := by
  rw [holdCheckpoint, if_pos held]
  exact Holds.pure (fun _ holds => holds)

theorem judge_accepts
    {verdict : Except ValidatorError Unit}
    (passed : verdict = .ok ()) :
    Holds pre (judge verdict : Locked (HeaderBackend Raw) Raw Unit)
      (fun _ => pre) (fun _ _ => False) := by
  rw [passed]
  exact Holds.pure (fun _ holds => holds)

theorem appendLocked_accepts
    {btc : Bitcoin Raw}
    {network : Network}
    {checkpoint : Option Checkpoint}
    {height nowSecs low high : Nat}
    {incoming : Header}
    (passed :
      validateAppend btc network
        (decodeAncestors btc chain height (retargetInterval btc network))
        height incoming nowSecs = .ok ())
    (held : holdsCheckpoint btc checkpoint height raw = true)
    (covers : BTreeMap.Covers (chain.insert height raw) low high)
    (ordered : low ≤ high) :
    Holds (Holding chain)
      (appendLocked btc network checkpoint height raw incoming nowSecs :
        Locked (HeaderBackend Raw) Raw Unit)
      (fun _ => Holding (chain.insert height raw)) (fun _ _ => False) := by
  apply Holds.bindGet
  rintro read ⟨-, rfl⟩
  refine Holds.bind (judge_accepts passed) (fun _ => ?_)
  refine Holds.bind (holdCheckpoint_accepts held) (fun _ => ?_)
  apply Holds.bindGet
  intro before _
  refine Holds.bind (insertRow_accepts _ height raw) (fun _ => ?_)
  refine Holds.bind (flushRows_accepts covers ordered) (fun _ => ?_)
  apply Holds.bindGet
  intro after _
  exact setValidationState_accepts _ _

end Locked

/--
The header of a chain at `height` passes over a chain stored from `low` up:
what a replay asks of it, at every clock reading in question, and the
checkpoint.
-/
structure RowPasses
    (btc : Bitcoin Raw)
    (network : Network)
    (checkpoint : Option Checkpoint)
    (clocks : Nat → Prop)
    (served : Nat → Raw)
    (headers : Nat → Header)
    (low height : Nat) : Prop where
  decodes : btc.deserialize (served height) = some (headers height)
  passes :
    ∀ nowSecs, clocks nowSecs →
      replayRow btc network nowSecs low
        (window headers low height (retargetInterval btc network)) height
        (headers height) = .ok ()
  held : holdsCheckpoint btc checkpoint height (served height) = true

variable {checkpoint : Option Checkpoint}

theorem RowPasses.validates
    {btc : Bitcoin Raw}
    {network : Network}
    {clocks : Nat → Prop}
    {served : Nat → Raw}
    {headers : Nat → Header}
    {low height nowSecs : Nat}
    (row :
      RowPasses btc network checkpoint clocks served headers low height)
    (above : low < height)
    (clock : clocks nowSecs) :
    validateAppend btc network
      (window headers low height (retargetInterval btc network)) height
      (headers height) nowSecs = .ok () := by
  have passes := row.passes nowSecs clock
  rwa [replayRow, if_neg (by omega), if_pos above] at passes

section Feeding

variable {Raw : Type}
variable {btc : Bitcoin Raw} {network : Network}
variable {checkpoint : Option Checkpoint} {clocks : Nat → Prop}
variable {served : Nat → Raw} {headers : Nat → Header}
variable {now : Nat → Nat} {low : Nat}

/-- The headers of a chain past an anchor are appended one after the other. -/
theorem appendRows_accepts
    (wasEmpty : Bool)
    (start index count more : Nat)
    (readings : ∀ reading, clocks (now reading))
    (pastAnchor : ¬ (wasEmpty ∧ index = 0))
    (anchored : 0 < count)
    (next : start + index = low + count)
    (bounded : low + count + more ≤ u32Max + 1)
    (rows :
      ∀ height, low + count ≤ height → height < low + count + more →
        RowPasses btc network checkpoint clocks served headers low
          height) :
    Holds (Holding (BTreeMap.tabulate served low count))
      (appendRows btc network checkpoint now wasEmpty start index
        (window headers low (low + count) (retargetInterval btc network))
        ((List.range' (low + count) more).map served) :
        Locked (HeaderBackend Raw) Raw Unit)
      (fun _ => Holding (BTreeMap.tabulate served low (count + more)))
      (fun _ _ => False) := by
  induction more generalizing index count with
  | zero =>
      exact Holds.pure (fun _ holding => holding)
  | succ more inductionHypothesis =>
      have here := rows (low + count) (by omega) (by omega)
      rw [List.range'_succ, List.map_cons]
      have sum :
          (addHeights start index : Locked (HeaderBackend Raw) Raw Nat) =
            pure (low + count) := by
        rw [addHeights, if_pos (by omega), next]
      have decoded :
          (decode btc (served (low + count)) :
            Locked (HeaderBackend Raw) Raw Header) =
            pure (headers (low + count)) := by
        rw [decode, here.decodes]
      have notAnchor :
          ¬ (wasEmpty = true ∧ index = 0 ∧ low + count > 0) :=
        fun anchor => pastAnchor ⟨anchor.1, anchor.2.1⟩
      simp only [appendRows, sum, decoded, pure_bind, notAnchor,
        ↓reduceIte]
      refine Holds.bind
        (judge_accepts (here.validates (by omega) (readings index)))
        (fun _ => ?_)
      refine Holds.bind (holdCheckpoint_accepts here.held) (fun _ => ?_)
      refine Holds.bind (insertRow_accepts _ _ _) (fun _ => ?_)
      rw [← BTreeMap.tabulate_succ,
        slideWindow_window headers (by omega)
          (retargetInterval_pos btc network),
        Nat.add_assoc low count 1]
      have rest :=
        inductionHypothesis (index + 1) (count + 1) (by omega) (by omega)
          (by omega) (by omega)
          (fun height above below => rows height (by omega) (by omega))
      rw [show count + (more + 1) = count + 1 + more by omega]
      exact rest

theorem appendBatchLocked_accepts
    (count more : Nat)
    (readings : ∀ reading, clocks (now reading))
    (bounded : low + (count + 1) + more ≤ u32Max + 1)
    (rows :
      ∀ height, low ≤ height → height < low + (count + 1) + more →
        RowPasses btc network checkpoint clocks served headers low
          height) :
    Holds (Holding (BTreeMap.tabulate served low (count + 1)))
      (appendBatchLocked btc network checkpoint now (low + (count + 1))
        ((List.range' (low + (count + 1)) more).map served) :
        Locked (HeaderBackend Raw) Raw Unit)
      (fun _ =>
        Holding (BTreeMap.tabulate served low (count + 1 + more)))
      (fun _ _ => False) := by
  apply Holds.bindGet
  rintro read ⟨-, stored⟩
  have cached :
      read.store.cache = BTreeMap.tabulate served low (count + 1) := stored
  have notEmpty : read.store.cache.isEmpty = false := by
    rw [cached, Std.ExtTreeMap.isEmpty_eq_false_iff]
    exact (BTreeMap.covers_tabulate served low count).ne_empty (by omega)
  have ancestors :
      collectAncestors btc (low + (count + 1))
          (retargetInterval btc network) read.store.get =
        window headers low (low + (count + 1))
          (retargetInterval btc network) := by
    rw [← decodeAncestors_tabulate btc served headers
      (retargetInterval_pos btc network) (by omega) (Nat.le_refl _)
      (fun height above below =>
        (rows height above (by omega)).decodes), decodeAncestors, ← cached]
    rfl
  simp only [notEmpty, Bool.false_eq_true, ↓reduceIte, ancestors]
  refine Holds.bind
    (appendRows_accepts false _ 0 (count + 1) more readings (by simp)
      (by omega) (by omega) bounded
      (fun height above below => rows height (by omega) below))
    (fun _ => ?_)
  refine Holds.bind
    (flushRows_accepts
      (by
        rw [show count + 1 + more = (count + more) + 1 by omega]
        exact BTreeMap.covers_tabulate served low (count + more))
      (by omega)) (fun _ => ?_)
  exact setValidationState_accepts _ _

theorem appendBatchLocked_anchors
    (more : Nat)
    (readings : ∀ reading, clocks (now reading))
    (boundary : low % retargetInterval btc network = 0)
    (bounded : low + (1 + more) ≤ u32Max + 1)
    (rows :
      ∀ height, low ≤ height → height < low + (1 + more) →
        RowPasses btc network checkpoint clocks served headers low
          height) :
    Holds (Holding ∅)
      (appendBatchLocked btc network checkpoint now low
        ((List.range' low (1 + more)).map served) :
        Locked (HeaderBackend Raw) Raw Unit)
      (fun _ => Holding (BTreeMap.tabulate served low (1 + more)))
      (fun _ _ => False) := by
  have floor := rows low (by omega) (by omega)
  have atFloor := floor.passes (now 0) (readings 0)
  have noAncestors :
      window headers low low (retargetInterval btc network) = [] := by
    rw [window, show low -
      Max.max low (low - retargetInterval btc network) = 0 by omega]
    rfl
  apply Holds.bindGet
  rintro read ⟨-, stored⟩
  have isEmpty : read.store.cache.isEmpty = true := by
    rw [show read.store.cache = ∅ from stored]
    rfl
  rw [show 1 + more = more + 1 by omega, List.range'_succ, List.map_cons]
  have sum :
      (addHeights low 0 : Locked (HeaderBackend Raw) Raw Nat) =
        pure low := by
    rw [addHeights, if_pos (by omega), Nat.add_zero]
  have decoded :
      (decode btc (served low) : Locked (HeaderBackend Raw) Raw Header) =
        pure (headers low) := by
    rw [decode, floor.decodes]
  have single :
      (∅ : HeaderMap Raw).insert low (served low) =
        BTreeMap.tabulate served low 1 :=
    (BTreeMap.tabulate_succ served low 0).symm
  have slid :
      slideWindow (retargetInterval btc network) [] (headers low) =
        window headers low (low + 1) (retargetInterval btc network) := by
    rw [← noAncestors]
    exact slideWindow_window headers (Nat.le_refl low)
      (retargetInterval_pos btc network)
  have afterVerdict :
      Holds (Holding ∅)
        (do
          holdCheckpoint btc checkpoint low (served low)
          insertRow low (served low)
          appendRows btc network checkpoint now true low 1
            (slideWindow (retargetInterval btc network) [] (headers low))
            ((List.range' (low + 1) more).map served) :
          Locked (HeaderBackend Raw) Raw Unit)
        (fun _ => Holding (BTreeMap.tabulate served low (1 + more)))
        (fun _ _ => False) := by
    refine Holds.bind (holdCheckpoint_accepts floor.held) (fun _ => ?_)
    refine Holds.bind (insertRow_accepts _ _ _) (fun _ => ?_)
    rw [single, slid]
    exact appendRows_accepts true low 1 1 more readings (by simp)
      (by omega) rfl (by omega)
      (fun height above below => rows height (by omega) (by omega))
  refine Holds.through
    (fun _ => Holding (BTreeMap.tabulate served low (1 + more))) ?_
    (fun _ => ?_)
  · simp only [isEmpty, ↓reduceIte, appendRows, sum, decoded, pure_bind]
    by_cases positive : low > 0
    · rw [replayRow, if_neg (by omega), if_neg (by omega)] at atFloor
      simp only [positive, and_self, boundary, ne_eq, not_true_eq_false,
        ↓reduceIte, Nat.zero_add]
      exact Holds.bind (judge_accepts atFloor) (fun _ => afterVerdict)
    · rw [replayRow, if_pos (by omega)] at atFloor
      simp only [positive, and_false, ↓reduceIte, Nat.zero_add]
      exact Holds.bind (judge_accepts atFloor) (fun _ => afterVerdict)
  · refine Holds.bind
      (flushRows_accepts
        (by
          rw [Nat.add_comm 1 more]
          exact BTreeMap.covers_tabulate served low more)
        (by omega)) (fun _ => ?_)
    rw [Nat.add_comm more 1]
    exact setValidationState_accepts _ _

variable {nowSecs : Nat} (count : Nat)

theorem appendLocked_tabulate
    (clock : clocks nowSecs)
    (rows :
      ∀ height, low ≤ height → height < low + (count + 1) + 1 →
        RowPasses btc network checkpoint clocks served headers low
          height) :
    Holds (Holding (BTreeMap.tabulate served low (count + 1)))
      (appendLocked btc network checkpoint (low + (count + 1))
        (served (low + (count + 1))) (headers (low + (count + 1))) nowSecs :
        Locked (HeaderBackend Raw) Raw Unit)
      (fun _ => Holding (BTreeMap.tabulate served low (count + 1 + 1)))
      (fun _ _ => False) := by
  have here := rows (low + (count + 1)) (by omega) (by omega)
  rw [BTreeMap.tabulate_succ served low (count + 1)]
  refine appendLocked_accepts ?_ here.held ?_
    (show low ≤ low + (count + 1) by omega)
  · rw [decodeAncestors_tabulate btc served headers
      (retargetInterval_pos btc network) (by omega) (Nat.le_refl _)
      (fun height above below => (rows height above (by omega)).decodes)]
    exact here.validates (by omega) clock
  · rw [← BTreeMap.tabulate_succ]
    exact BTreeMap.covers_tabulate served low (count + 1)

theorem replayValidate_tabulate
    (clock : clocks nowSecs)
    (rows :
      ∀ height, low ≤ height → height < low + (count + 1) →
        RowPasses btc network checkpoint clocks served headers low
          height) :
    replayValidate btc network (BTreeMap.tabulate served low (count + 1))
      nowSecs = .ok () := by
  rw [replayValidate_eq_ok_iff (BTreeMap.covers_tabulate served low count)
    (by omega)]
  intro height raw present
  rw [BTreeMap.getElem?_tabulate] at present
  split at present
  · rename_i within
    cases present
    have here := rows height within.1 within.2
    refine ⟨headers height, here.decodes, ?_⟩
    rw [decodeAncestors_tabulate btc served headers
      (retargetInterval_pos btc network) within.1 (by omega)
      (fun other above below => (rows other above below).decodes)]
    exact here.passes nowSecs clock
  · cases present

theorem insertHeld_accepts
    {chain : HeaderMap Raw}
    {inserted : List (Nat × Raw)}
    (held :
      ∀ row ∈ inserted,
        holdsCheckpoint btc checkpoint row.1 row.2 = true) :
    Holds (Holding chain)
      (insertHeld btc checkpoint inserted :
        Locked (HeaderBackend Raw) Raw Unit)
      (fun _ => Holding (chain.insertAll inserted)) (fun _ _ => False) := by
  induction inserted generalizing chain with
  | nil =>
      exact Holds.pure (fun _ holding => holding)
  | cons row rest inductionHypothesis =>
      refine Holds.bind (holdCheckpoint_accepts (held row (by simp)))
        (fun _ => ?_)
      refine Holds.bind (insertRow_accepts _ row.1 row.2) (fun _ => ?_)
      exact inductionHypothesis (fun other member =>
        held other (by simp [member]))

theorem prependLocked_accepts
    {nowSecs : Nat}
    (added count : Nat)
    (clock : clocks nowSecs)
    (rows :
      ∀ height, low ≤ height → height < low + (added + 1) →
        RowPasses btc network checkpoint clocks served headers low
          height) :
    Holds (Holding (BTreeMap.tabulate served (low + added) (count + 1)))
      (prependLocked btc network checkpoint nowSecs low (low + added)
        ((List.range' low added).map served) :
        Locked (HeaderBackend Raw) Raw Unit)
      (fun _ inner =>
        Holding (BTreeMap.tabulate served low (added + count + 1)) inner ∧
          inner.store.backend.rows =
            BTreeMap.tabulate served low (added + count + 1))
      (fun _ _ => False) := by
  apply Holds.bindGet
  rintro read ⟨-, stored⟩
  have found :
      read.store.get (low + added) = some (served (low + added)) := by
    rw [RamStore.get, show read.store.cache = _ from stored,
      BTreeMap.getElem?_tabulate, if_pos (by omega)]
  have range :
      prependRange low (low + added) ((List.range' low added).map served)
          (served (low + added)) =
        BTreeMap.tabulate served low (added + 1) := by
    rw [BTreeMap.tabulate_succ, BTreeMap.tabulate, prependRange,
      List.length_map, List.length_range']
    congr 2
    simpa using
      @List.zip_map' _ _ _ id served (List.range' low added)
  rw [found]
  simp only [range]
  refine Holds.bind
    (judge_accepts (replayValidate_tabulate added clock rows))
    (fun _ => ?_)
  have below :
      ∀ row,
        row ∈ (BTreeMap.tabulate served low (added + 1)).toList.filter
            (fun row => row.1 < low + added) ↔
          (low ≤ row.1 ∧ row.1 < low + added) ∧ row.2 = served row.1 := by
    intro row
    rw [List.mem_filter, ← Prod.mk.eta (p := row),
      Std.ExtTreeMap.mem_toList_iff_getElem?_eq_some,
      BTreeMap.getElem?_tabulate]
    simp only [decide_eq_true_eq, Option.ite_none_right_eq_some,
      Option.some.injEq]
    constructor
    · rintro ⟨⟨within, same⟩, under⟩
      exact ⟨⟨within.1, under⟩, same.symm⟩
    · rintro ⟨within, same⟩
      exact ⟨⟨⟨within.1, by omega⟩, same.symm⟩, within.2⟩
  have joined :
      BTreeMap.insertAll
          (BTreeMap.tabulate served (low + added) (count + 1))
          ((BTreeMap.tabulate served low (added + 1)).toList.filter
            (fun row => row.1 < low + added)) =
        BTreeMap.tabulate served low (added + count + 1) := by
    let source : Nat → Option Raw := fun height => some (served height)
    have taken :
        ∀ row ∈ (BTreeMap.tabulate served low (added + 1)).toList.filter
            (fun row => row.1 < low + added),
          source row.1 = some row.2 :=
      fun row member => by rw [((below row).mp member).2]
    apply Std.ExtTreeMap.ext_getElem?
    intro height
    rw [BTreeMap.getElem?_insertAll_of_source _ taken,
      BTreeMap.getElem?_tabulate, BTreeMap.getElem?_tabulate]
    by_cases under : low ≤ height ∧ height < low + added
    · rw [if_pos (List.mem_map.mpr
          ⟨(height, served height),
            (below (height, served height)).mpr ⟨under, rfl⟩, rfl⟩),
        if_pos (by omega)]
    · rw [if_neg (by
        intro listed
        obtain ⟨row, member, rfl⟩ := List.mem_map.mp listed
        exact under ((below row).mp member).1)]
      by_cases within : low + added ≤ height ∧
          height < low + added + (count + 1)
      · rw [if_pos within, if_pos (by omega)]
      · rw [if_neg within, if_neg (by omega)]
  refine Holds.bind
    (insertHeld_accepts (fun row member => ?_)) (fun _ => ?_)
  · obtain ⟨within, same⟩ := (below row).mp member
    rw [same]
    exact (rows row.1 within.1 (by omega)).held
  · rw [joined]
    exact flushRows_writes
      (BTreeMap.covers_tabulate served low (added + count)) (by omega)

end Feeding

/-- A store under `token` that guards `chain`. -/
structure Serves
    (network : Network)
    (checkpoint : Option Checkpoint)
    (token : Nat)
    (chain : HeaderMap Raw)
    (store : HeaderStore (HeaderBackend Raw) Raw) : Prop where
  network : store.network = network
  checkpoint : store.checkpoint = checkpoint
  token : store.writerToken = token
  running : store.stopped = false
  holding : Holding chain store.inner

variable {token : Nat} {store : HeaderStore (HeaderBackend Raw) Raw}
variable {body : Locked (HeaderBackend Raw) Raw Unit}

theorem withWriter_returns
    {network : Network}
    {chain : HeaderMap Raw}
    {post : Inner (HeaderBackend Raw) Raw → Prop}
    (serves : Serves network checkpoint token chain store)
    (triple :
      Holds (Holding chain) body (fun _ => post) (fun _ _ => False)) :
    ∃ inner,
      store.withWriter token body = (.ok (), store.release inner) ∧
        post inner := by
  have reached := triple store.inner serves.holding
  have current : ¬ store.writerToken ≠ token := not_not.mpr serves.token
  rw [HeaderStore.withWriter, if_neg current]
  cases outcome : body store.inner with
  | ok value inner =>
      rw [outcome] at reached
      exact ⟨inner, rfl, reached⟩
  | error reason inner =>
      rw [outcome] at reached
      exact reached.elim

theorem withWriter_accepts
    {network : Network}
    {chain after : HeaderMap Raw}
    (serves : Serves network checkpoint token chain store)
    (triple :
      Holds (Holding chain) body (fun _ => Holding after)
        (fun _ _ => False)) :
    ∃ next,
      store.withWriter token body = (.ok (), next) ∧
        Serves network checkpoint token after next := by
  obtain ⟨inner, returned, holding⟩ := withWriter_returns serves triple
  exact ⟨store.release inner, returned, serves.network, serves.checkpoint,
    serves.token, serves.running, holding⟩

end Bwk
