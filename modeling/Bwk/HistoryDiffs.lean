import Bwk.CoinGhosts
import Bwk.OrderedMapMoves

namespace Bwk

/-!
# The differences between histories

What `SpkHistory::insert` returns leads from the history it knew to the one it
was given, so that a reader of the differences alone can follow the histories.
-/

namespace HistoryDiff

/-- A history once the differences are applied to it. -/
def apply (diff : HistoryDiff) (previous : HistoryMap) : HistoryMap :=
  BTreeMap.append
    (BTreeMap.append
      (previous.retain (fun txid _ => txid ∉ diff.removed))
      diff.changed)
    diff.added

/-- The differences lead from one history to another: a transaction is in one
part at most, each part reports what its own history says, and together they
rebuild the new history. -/
structure Leads (diff : HistoryDiff) (previous next : HistoryMap) : Prop where
  added_not_changed : ∀ txid ∈ diff.added, txid ∉ diff.changed
  added_not_removed : ∀ txid ∈ diff.added, txid ∉ diff.removed
  changed_not_removed : ∀ txid ∈ diff.changed, txid ∉ diff.removed
  added_from :
    ∀ (txid : Txid) (height : Option Nat),
      diff.added[txid]? = some height → next[txid]? = some height
  changed_from :
    ∀ (txid : Txid) (height : Option Nat),
      diff.changed[txid]? = some height → next[txid]? = some height
  removed_from :
    ∀ (txid : Txid) (height : Option Nat),
      diff.removed[txid]? = some height → previous[txid]? = some height
  rebuilds : diff.apply previous = next

/-- What each part says of a transaction, from what the two histories say of
it. -/
structure Compares (diff : HistoryDiff) (previous next : HistoryMap) : Prop where
  added :
    ∀ txid : Txid,
      diff.added[txid]? =
        (next[txid]?).filter (fun _ => (previous[txid]?).isNone)
  changed :
    ∀ txid : Txid,
      diff.changed[txid]? =
        (next[txid]?).filter (fun height =>
          (previous[txid]?).any (fun before => height ≠ before))
  removed :
    ∀ txid : Txid,
      diff.removed[txid]? =
        (previous[txid]?).filter (fun _ => (next[txid]?).isNone)

variable {diff : HistoryDiff} {previous next : HistoryMap}

/-- Differences that compare two histories lead from one to the other. -/
theorem Compares.leads (compares : diff.Compares previous next) :
    diff.Leads previous next := by
  obtain ⟨added, changed, removed⟩ := compares
  constructor
  case rebuilds =>
    apply Std.ExtTreeMap.ext_getElem?
    intro txid
    simp only [apply, BTreeMap.getElem?_append, BTreeMap.getElem?_retain,
      Std.ExtTreeMap.mem_iff_isSome_getElem?, added, changed, removed]
    cases previous[txid]? with
    | none =>
        cases next[txid]? <;> simp
    | some before =>
        cases next[txid]? with
        | none =>
            simp
        | some height =>
            by_cases same : height = before <;> simp [same]
  all_goals
    intro txid
    simp only [Std.ExtTreeMap.mem_iff_isSome_getElem?, added, changed, removed]
    cases previous[txid]? <;> cases next[txid]? <;> simp +contextual

end HistoryDiff

namespace SpkHistory

/-- Either branch of `insert` compares the two histories. -/
theorem insert_compares
    (spk : SpkHistory)
    (reported : History) :
    (spk.insert reported).1.Compares spk.last
      ((∅ : HistoryMap).insertAll reported) := by
  have decided (map : HistoryMap) (txid : Txid) :
      decide (txid ∉ map) = (map[txid]?).isNone := by
    simp only [Std.ExtTreeMap.mem_iff_isSome_getElem?]
    cases map[txid]? <;> rfl
  unfold insert
  dsimp only
  split
  case isTrue noneBefore =>
    rw [Std.ExtTreeMap.isEmpty_iff.mp noneBefore]
    split
    case isTrue noneNow =>
      rw [Std.ExtTreeMap.isEmpty_iff.mp noneNow]
      constructor <;> simp
    case isFalse =>
      constructor <;> intro txid <;>
        cases ((∅ : HistoryMap).insertAll reported)[txid]? <;>
          simp [Option.filter]
  case isFalse =>
    constructor <;> intro txid <;>
      simp only [BTreeMap.getElem?_retain, decided]

/-- Insert histories in turn, and return the differences of each. -/
def insertEach (spk : SpkHistory) : List History → List HistoryDiff × SpkHistory
  | [] => ([], spk)
  | reported :: later =>
      let (diff, inserted) := spk.insert reported
      let (diffs, last) := inserted.insertEach later
      (diff :: diffs, last)

/-- Applied in turn, the differences lead to the latest history. -/
theorem replay_insertEach
    (spk : SpkHistory)
    (reports : List History) :
    (spk.insertEach reports).1.foldl
        (fun known diff => diff.apply known) spk.last =
      (spk.insertEach reports).2.last := by
  induction reports generalizing spk with
  | nil =>
      rfl
  | cons reported later inductionHypothesis =>
      have rebuilt : (spk.insert reported).1.apply spk.last =
          (spk.insert reported).2.last := by
        rw [last_insert]
        exact (spk.insert_compares reported).leads.rebuilds
      rw [insertEach, List.foldl_cons, rebuilt]
      exact inductionHypothesis _

theorem insertEach_append
    (spk : SpkHistory)
    (reports later : List History) :
    (spk.insertEach (reports ++ later)).2 =
      ((spk.insertEach reports).2.insertEach later).2 := by
  induction reports generalizing spk with
  | nil =>
      rfl
  | cons reported reports inductionHypothesis =>
      exact inductionHypothesis _

/--
However many histories were inserted, the differences of the next one lead from
the last of them to it, and applied in turn all the differences lead to it.
-/
theorem insert_diffs_lead
    (spk : SpkHistory)
    (reports : List History)
    (reported : History) :
    ((spk.insertEach reports).2.insert reported).1.Leads
        (spk.insertEach reports).2.last
        ((∅ : HistoryMap).insertAll reported) ∧
      (spk.insertEach (reports ++ [reported])).1.foldl
          (fun known diff => diff.apply known) spk.last =
        (∅ : HistoryMap).insertAll reported := by
  constructor
  · exact (insert_compares _ reported).leads
  · rw [replay_insertEach, insertEach_append]
    exact last_insert _ reported

end SpkHistory

end Bwk
