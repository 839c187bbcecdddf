import Bwk.SpScanRules

namespace Bwk

/-!
# What a watched set counts

A watched set holds its outpoints, their heights and how many of them there are
at each height.  The three agree with one list of coins, so that its floor is
the least height of a coin still watched.
-/

structure WatchableSet.Tallied
    (watch : WatchableSet)
    (coins : List (OutPoint × Nat)) : Prop where
  distinct : (coins.map Prod.fst).Nodup
  outpoints :
    ∀ outpoint, outpoint ∈ watch.outpoints ↔ outpoint ∈ coins.map Prod.fst
  heights :
    ∀ outpoint height,
      watch.heightOf[outpoint]? = some height ↔ (outpoint, height) ∈ coins
  counts :
    ∀ height : Nat,
      watch.byHeight[height]? =
        if (coins.map Prod.snd).count height = 0 then
          none
        else
          some ((coins.map Prod.snd).count height)

namespace WatchableSet.Tallied

variable {watch : WatchableSet} {coins : List (OutPoint × Nat)}

theorem empty : Tallied ⟨∅, ∅, ∅⟩ [] where
  distinct := List.nodup_nil
  outpoints := by simp
  heights := by simp
  counts := by simp

variable {coin : OutPoint × Nat}

theorem add
    (tallied : watch.Tallied coins)
    (fresh : coin.1 ∉ coins.map Prod.fst) :
    (watch.add coin).Tallied (coin :: coins) := by
  have unwatched : coin.1 ∉ watch.outpoints :=
    fun member => fresh ((tallied.outpoints _).mp member)
  rw [WatchableSet.add, if_neg unwatched]
  constructor
  · rw [List.map_cons, List.nodup_cons]
    exact ⟨fresh, tallied.distinct⟩
  · intro outpoint
    rw [BTreeSet.mem_insert_eq, List.map_cons, List.mem_cons,
      tallied.outpoints]
  · intro outpoint height
    rw [BTreeMap.getElem?_insert_eq, List.mem_cons]
    by_cases same : coin.1 = outpoint
    · rw [if_pos same]
      constructor
      · intro known
        cases known
        exact Or.inl (Prod.ext same.symm rfl)
      · rintro (here | there)
        · rw [← here]
        · refine absurd ?_ fresh
          rw [same]
          exact List.mem_map_of_mem there
    · rw [if_neg same, tallied.heights]
      constructor
      · exact Or.inr
      · rintro (here | there)
        · exact absurd (by rw [← here]) same
        · exact there
  · intro height
    have before :
        watch.byHeight.getD coin.2 0 = (coins.map Prod.snd).count coin.2 := by
      rw [Std.ExtTreeMap.getD_eq_getD_getElem?, tallied.counts]
      split
      · next zero =>
          rw [zero]
          rfl
      · rfl
    rw [BTreeMap.getElem?_insert_eq, before, List.map_cons, List.count_cons]
    by_cases same : coin.2 = height
    · simp [same]
    · simp [same, tallied.counts]

theorem perm_cons_filter
    (distinct : (coins.map Prod.fst).Nodup)
    (member : coin ∈ coins) :
    coins.Perm (coin :: coins.filter (fun other => other.1 ≠ coin.1)) := by
  induction coins with
  | nil =>
      cases member
  | cons first rest inductionHypothesis =>
      rw [List.map_cons, List.nodup_cons] at distinct
      rcases List.mem_cons.mp member with rfl | later
      · have others :
            rest.filter (fun other => other.1 ≠ coin.1) = rest := by
          rw [List.filter_eq_self]
          intro other listed
          rw [decide_eq_true_eq]
          rintro same
          exact distinct.1 (same ▸ List.mem_map_of_mem listed)
        rw [List.filter_cons_of_neg (by simp), others]
      · have differs : first.1 ≠ coin.1 := fun same =>
          distinct.1 (same ▸ List.mem_map_of_mem later)
        rw [List.filter_cons_of_pos (by simpa using differs)]
        exact ((inductionHypothesis distinct.2 later).cons first).trans
          (List.Perm.swap _ _ _)

theorem remove
    (tallied : watch.Tallied coins)
    (outpoint : OutPoint) :
    (watch.remove outpoint).Tallied
      (coins.filter (fun coin => coin.1 ≠ outpoint)) := by
  by_cases watched : outpoint ∈ watch.outpoints
  · rw [WatchableSet.remove, if_pos watched]
    obtain ⟨⟨name, height⟩, member, rfl⟩ :=
      List.mem_map.mp ((tallied.outpoints _).mp watched)
    have known := (tallied.heights name height).mpr member
    have without :=
      ((perm_cons_filter tallied.distinct member).map Prod.snd)
    have counted :
        ∀ query : Nat,
          (coins.map Prod.snd).count query =
            ((coins.filter (fun coin => coin.1 ≠ name)).map Prod.snd).count
                query + if height = query then 1 else 0 := by
      intro query
      rw [without.count_eq, List.map_cons, List.count_cons]
      simp
    constructor
    · exact tallied.distinct.sublist (List.filter_sublist.map _)
    · intro query
      rw [BTreeSet.mem_erase_eq, tallied.outpoints]
      simp only [List.mem_map, List.mem_filter, decide_eq_true_eq]
      constructor
      · rintro ⟨differs, coin, listed, rfl⟩
        exact ⟨coin, ⟨listed, differs⟩, rfl⟩
      · rintro ⟨coin, ⟨listed, differs⟩, rfl⟩
        exact ⟨differs, coin, listed, rfl⟩
    · intro query height'
      rw [BTreeMap.getElem?_erase_eq, List.mem_filter, decide_eq_true_eq]
      by_cases same : name = query
      · simp [same]
      · rw [if_neg same, tallied.heights]
        exact ⟨fun listed => ⟨listed, Ne.symm same⟩, And.left⟩
    · intro query
      have positive := counted height
      rw [if_pos rfl] at positive
      have held := tallied.counts height
      rw [if_neg (by omega)] at held
      dsimp only
      rw [known]
      dsimp only
      rw [held]
      dsimp only
      by_cases same : height = query
      · subst same
        rw [positive, Nat.add_sub_cancel]
        split
        · rw [BTreeMap.getElem?_erase_eq, if_pos rfl]
        · rw [BTreeMap.getElem?_insert_eq, if_pos rfl]
      · have unchanged := counted query
        rw [if_neg same, Nat.add_zero] at unchanged
        rw [← unchanged, ← tallied.counts query]
        split
        · rw [BTreeMap.getElem?_erase_eq, if_neg same]
        · rw [BTreeMap.getElem?_insert_eq, if_neg same]
  · rw [WatchableSet.remove, if_neg watched]
    have others :
        coins.filter (fun coin => coin.1 ≠ outpoint) = coins := by
      rw [List.filter_eq_self]
      intro coin listed
      rw [decide_eq_true_eq]
      rintro rfl
      exact watched ((tallied.outpoints _).mpr (List.mem_map_of_mem listed))
    rw [others]
    exact tallied

theorem removeAll
    (tallied : watch.Tallied coins)
    (outpoints : List OutPoint) :
    ∃ rest,
      (outpoints.foldl WatchableSet.remove watch).Tallied rest ∧
        ∀ coin, coin ∈ rest ↔ coin ∈ coins ∧ coin.1 ∉ outpoints := by
  induction outpoints generalizing watch coins with
  | nil =>
      exact ⟨coins, tallied, by simp⟩
  | cons outpoint further inductionHypothesis =>
      obtain ⟨rest, left_, members⟩ :=
        inductionHypothesis (tallied.remove outpoint)
      refine ⟨rest, left_, ?_⟩
      intro coin
      rw [members, List.mem_filter, decide_eq_true_eq, List.mem_cons]
      tauto

theorem new
    (distinct : (coins.map Prod.fst).Nodup) :
    ∃ tally,
      (WatchableSet.new coins).Tallied tally ∧
        ∀ coin, coin ∈ tally ↔ coin ∈ coins := by
  have general :
      ∀ (watch : WatchableSet) known,
        watch.Tallied known →
        (∀ coin ∈ coins, coin.1 ∉ known.map Prod.fst) →
        ∃ tally, (coins.foldl WatchableSet.add watch).Tallied tally ∧
          ∀ coin, coin ∈ tally ↔ coin ∈ coins ∨ coin ∈ known := by
    induction coins with
    | nil =>
        intro watch known tallied _
        exact ⟨known, tallied, by simp⟩
    | cons first rest inductionHypothesis =>
        intro watch known tallied fresh
        rw [List.map_cons, List.nodup_cons] at distinct
        obtain ⟨tally, all, members⟩ :=
          inductionHypothesis distinct.2 (watch.add first) (first :: known)
            (tallied.add (fresh first List.mem_cons_self)) (by
              intro coin listed
              rw [List.map_cons, List.mem_cons, not_or]
              refine ⟨?_, fresh coin (List.mem_cons_of_mem _ listed)⟩
              rintro same
              exact distinct.1 (same ▸ List.mem_map_of_mem listed))
        refine ⟨tally, all, ?_⟩
        intro coin
        rw [members, List.mem_cons, List.mem_cons]
        tauto
  obtain ⟨tally, all, members⟩ :=
    general ⟨∅, ∅, ∅⟩ [] empty (by simp)
  exact ⟨tally, all, fun coin => by rw [members]; simp⟩

theorem floor_none
    (tallied : watch.Tallied coins)
    (unwatched : watch.floor = none) :
    coins = [] := by
  rw [WatchableSet.floor, BTreeMap.firstKey?_eq_none_iff] at unwatched
  rw [List.eq_nil_iff_forall_not_mem]
  intro coin member
  have counted := tallied.counts coin.2
  rw [unwatched, Std.ExtTreeMap.getElem?_empty] at counted
  have positive : 0 < (coins.map Prod.snd).count coin.2 :=
    List.count_pos_iff.mpr (List.mem_map_of_mem member)
  rw [if_neg (by omega)] at counted
  cases counted

theorem floor_le
    (tallied : watch.Tallied coins)
    {floor : Nat}
    (lowest : watch.floor = some floor)
    (member : coin ∈ coins) :
    floor ≤ coin.2 := by
  have counted := tallied.counts coin.2
  have positive : 0 < (coins.map Prod.snd).count coin.2 :=
    List.count_pos_iff.mpr (List.mem_map_of_mem member)
  rw [if_neg (by omega)] at counted
  exact BTreeMap.firstKey?_le lowest
    (BTreeMap.mem_iff_getElem?.mpr ⟨_, counted⟩)

end WatchableSet.Tallied

end Bwk
