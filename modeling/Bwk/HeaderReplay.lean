import Bwk.HeaderChain

namespace Bwk

/-!
# What replaying a chain checks

`replay_validate` carries a sliding window over the rows it iterates, while a
single append collects its ancestors from the store.  Over a contiguous range
the two windows coincide, so a replay succeeds exactly when every row passes
on the ancestors collected from the range itself.  The pointwise form is what
the invariants of the store are stated with.
-/

/-- The row `raw` at `height` passes a replay of `chain` from `low`. -/
def RowReplays
    (btc : Bitcoin Raw)
    (network : Network)
    (nowSecs : Nat)
    (chain : HeaderMap Raw)
    (low height : Nat)
    (raw : Raw) : Prop :=
  ∃ header,
    btc.deserialize raw = some header ∧
    replayRow btc network nowSecs low
      (decodeAncestors btc chain height (retargetInterval btc network))
      height header = .ok ()

theorem retargetInterval_pos (btc : Bitcoin Raw) (network : Network) :
    0 < retargetInterval btc network := by
  simp [retargetInterval]

variable (btc : Bitcoin Raw) {chain : HeaderMap Raw}

theorem decodeAncestors_floor
    {low high max : Nat}
    (covers : chain.Covers low high) :
    decodeAncestors btc chain low max = [] := by
  apply decodeAncestors_of_gap
  intro below adjacent
  apply BTreeMap.not_mem_iff_getElem?.mp
  rw [covers below]
  omega

private theorem replayRows_eq_ok_iff
    (network : Network)
    (nowSecs low : Nat)
    {rows : List (Nat × Raw)}
    {first : Nat}
    (consecutive : rows.map Prod.fst = List.range' first rows.length)
    (stored : ∀ row ∈ rows, chain[row.1]? = some row.2) :
    replayRows btc network nowSecs low
        (decodeAncestors btc chain first (retargetInterval btc network))
        rows = .ok () ↔
      ∀ row ∈ rows,
        RowReplays btc network nowSecs chain low row.1 row.2 := by
  induction rows generalizing first with
  | nil =>
      simp [replayRows]
  | cons row rest inductionHypothesis =>
      rw [List.map_cons, List.length_cons, List.range'_succ,
        List.cons.injEq] at consecutive
      obtain ⟨rfl, restConsecutive⟩ := consecutive
      have here := stored row (by simp)
      cases decoded : btc.deserialize row.2 with
      | none =>
          simp [replayRows, decoded, RowReplays]
      | some header =>
          have slid :
              slideWindow (retargetInterval btc network)
                  (decodeAncestors btc chain row.1
                    (retargetInterval btc network)) header =
                decodeAncestors btc chain (row.1 + 1)
                  (retargetInterval btc network) := by
            refine (collectAncestors_succ btc _
              (retargetInterval_pos btc network) ?_).symm
            simp [headerAt, here, decoded]
          have later := inductionHypothesis restConsecutive
            (fun other member => stored other (by simp [member]))
          cases verdict :
              replayRow btc network nowSecs low
                (decodeAncestors btc chain row.1
                  (retargetInterval btc network)) row.1 header with
          | error reason =>
              simp [replayRows, decoded, verdict, RowReplays, bind,
                Except.bind]
          | ok value =>
              simp [replayRows, decoded, verdict, RowReplays, bind,
                Except.bind, slid, later]

theorem replayValidate_eq_ok_iff
    {btc : Bitcoin Raw}
    {network : Network}
    {nowSecs low high : Nat}
    (covers : chain.Covers low high)
    (ordered : low ≤ high) :
    replayValidate btc network chain nowSecs = .ok () ↔
      ∀ height raw, chain[height]? = some raw →
        RowReplays btc network nowSecs chain low height raw := by
  have consecutive :
      chain.toList.map Prod.fst =
        List.range' low chain.toList.length := by
    rw [Std.ExtTreeMap.map_fst_toList_eq_keys, covers.keys_eq ordered,
      Std.ExtTreeMap.length_toList, covers.size_eq ordered]
    congr 1
    omega
  have stored : ∀ row ∈ chain.toList, chain[row.1]? = some row.2 :=
    fun row member =>
      Std.ExtTreeMap.mem_toList_iff_getElem?_eq_some.mp member
  have perRow :=
    replayRows_eq_ok_iff btc network nowSecs low consecutive stored
  rw [decodeAncestors_floor btc covers] at perRow
  rw [replayValidate, covers.firstKey?_eq ordered]
  refine perRow.trans ?_
  constructor
  · intro replays height raw present
    exact replays (height, raw)
      (Std.ExtTreeMap.mem_toList_iff_getElem?_eq_some.mpr present)
  · intro replays row member
    exact replays row.1 row.2 (stored row member)

end Bwk
