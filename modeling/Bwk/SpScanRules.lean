import Bwk.SpRecords

namespace Bwk

/-!
# What a scan can do to the stores

A scan changes the stores through a handful of operations.  An invariant that
each of them keeps, on the data the scan passes to it, is kept by both passes
whatever the block workers deliver, wherever the clock asks for a checkpoint
and wherever the user stops.
-/

/-- A spend of the coin can still be detected. -/
def SpCoinStore.Watched (coins : SpCoinStore) (outpoint : OutPoint) : Prop :=
  ∃ entry, coins.get outpoint = some entry ∧ entry.status.blockHash = none

def Delivered
    (arrivals : List Arrival)
    (height : Nat)
    (hash : BlockHash) : Prop :=
  ∃ arrival ∈ arrivals, ∃ block,
    arrival.outcome = .ok block ∧ block.height = height ∧ block.hash = hash

/-- What the collector holds: delivered hashes, without a hole up to its tip. -/
structure Collector.Sound
    (arrivals : List Arrival)
    (start stop : Nat)
    (collector : Collector) : Prop where
  delivered :
    ∀ height hash, collector.hashes[height]? = some hash →
      Delivered arrivals height hash
  tip :
    ∀ tip, collector.recvTip = some tip →
      start ≤ tip ∧ tip ≤ stop ∧
        ∀ height, start ≤ height → height ≤ tip →
          height ∈ collector.hashes

/--
An invariant that every operation of a scan from `start` to `stop` keeps, on
the answers of its script; the sweep examines no block below `lowest`.
-/
structure ScanRules
    (script : ScanScript)
    (start stop lowest : Nat)
    (inv : ScanStores → Prop) : Prop where
  resumes :
    ∀ stores, inv stores → lowest ≤ stores.effectiveSpendStart start
  outputs :
    ∀ stores arrival block, arrival ∈ script.arrivals →
      arrival.outcome = .ok block →
      start ≤ block.height → block.height ≤ stop →
      inv stores →
      inv (stores.recordOutputs script.times block.outs)
  frontier :
    ∀ tip hashes,
      (⟨hashes, some tip⟩ : Collector).Sound script.arrivals start stop →
      Keeps inv (recordScanFrontier start tip hashes)
  inputs :
    ∀ stores request cursor watch blockHash spent,
      script.sweep.next request cursor watch = .ok (blockHash, spent) →
      lowest ≤ cursor → cursor ≤ stop →
      (∀ outpoint ∈ spent, stores.coins.Watched outpoint) →
      inv stores →
      inv (stores.recordInputs script.times blockHash cursor spent)
  spendFrontier :
    ∀ stores height, inv stores → inv (stores.recordSpendFrontier height)
  save :
    ∀ stores, inv stores → inv stores.saveState

section Collector

variable {arrivals : List Arrival} {start stop : Nat}

theorem advanceTip_sound
    {hashes : BTreeMap Nat BlockHash}
    {fuel next : Nat}
    (tip : Option Nat)
    (starts : tip = none → next = start)
    (follows : ∀ reached, tip = some reached → next = reached + 1)
    (filled :
      ∀ reached, tip = some reached →
        start ≤ reached ∧ reached ≤ stop ∧
          ∀ height, start ≤ height → height ≤ reached → height ∈ hashes) :
    ∀ reached, advanceTip hashes stop fuel next tip = some reached →
      start ≤ reached ∧ reached ≤ stop ∧
        ∀ height, start ≤ height → height ≤ reached → height ∈ hashes := by
  induction fuel generalizing next tip with
  | zero =>
      exact filled
  | succ fuel inductionHypothesis =>
      intro reached moved
      rw [advanceTip] at moved
      split at moved
      · next more =>
          refine inductionHypothesis (some next) ?_ ?_ ?_ reached moved
          · intro impossible
            cases impossible
          · intro next' same
            cases same
            rfl
          · intro next' same
            cases same
            cases known : tip with
            | none =>
                have first := starts known
                refine ⟨by omega, more.1, ?_⟩
                intro height low high
                have only : height = next := by omega
                rw [only]
                exact more.2
            | some before =>
                obtain ⟨low, _, below⟩ := filled before known
                have above := follows before known
                refine ⟨by omega, more.1, ?_⟩
                intro height lower upper
                by_cases last : height = next
                · rw [last]
                  exact more.2
                · exact below height lower (by omega)
      · exact filled reached moved

theorem Collector.sound_empty :
    (⟨∅, none⟩ : Collector).Sound arrivals start stop where
  delivered height hash found := by simp at found
  tip tip impossible := by cases impossible

theorem Collector.Sound.commit
    {collector : Collector}
    (sound : collector.Sound arrivals start stop)
    {arrival : Arrival}
    {block : BlockOutcome}
    (listed : arrival ∈ arrivals)
    (outcome : arrival.outcome = .ok block) :
    (collector.commit start stop block).Sound arrivals start stop where
  delivered height hash found := by
    simp only [Collector.commit, BTreeMap.getElem?_insert_eq] at found
    split at found
    · next same =>
        cases found
        exact ⟨arrival, listed, block, outcome, same, rfl⟩
    · exact sound.delivered height hash found
  tip := by
    refine advanceTip_sound collector.recvTip ?_ ?_ ?_
    · intro fresh
      simp only [Collector.next, fresh]
    · intro reached known
      simp only [Collector.next, known]
    · intro reached known
      obtain ⟨low, high, below⟩ := sound.tip reached known
      refine ⟨low, high, ?_⟩
      intro height lower upper
      rw [Std.ExtTreeMap.mem_insert]
      exact Or.inr (below height lower upper)

end Collector

namespace WatchableSet

@[simp] theorem mem_outpoints_add
    (watch : WatchableSet)
    (coin : OutPoint × Nat)
    (query : OutPoint) :
    query ∈ (watch.add coin).outpoints ↔
      query = coin.1 ∨ query ∈ watch.outpoints := by
  unfold add
  split
  · next known =>
      constructor
      · exact Or.inr
      · rintro (rfl | member)
        · exact known
        · exact member
  · exact BTreeSet.mem_insert_eq

theorem mem_outpoints_new
    (coins : List (OutPoint × Nat))
    (query : OutPoint) :
    query ∈ (new coins).outpoints ↔ query ∈ coins.map Prod.fst := by
  have general :
      ∀ watch : WatchableSet,
        query ∈ (coins.foldl add watch).outpoints ↔
          query ∈ coins.map Prod.fst ∨ query ∈ watch.outpoints := by
    induction coins with
    | nil =>
        simp
    | cons coin rest inductionHypothesis =>
        intro watch
        rw [List.foldl_cons, inductionHypothesis, mem_outpoints_add,
          List.map_cons, List.mem_cons]
        tauto
  rw [new, general]
  simp

@[simp] theorem mem_outpoints_remove
    (watch : WatchableSet)
    (outpoint query : OutPoint) :
    query ∈ (watch.remove outpoint).outpoints ↔
      query ≠ outpoint ∧ query ∈ watch.outpoints := by
  unfold remove
  split
  · exact BTreeSet.mem_erase_eq
  · next absent =>
      constructor
      · intro member
        refine ⟨?_, member⟩
        rintro rfl
        exact absent member
      · exact And.right

theorem mem_outpoints_foldl_remove
    (outpoints : List OutPoint)
    (watch : WatchableSet)
    (query : OutPoint) :
    query ∈ (outpoints.foldl remove watch).outpoints ↔
      query ∉ outpoints ∧ query ∈ watch.outpoints := by
  induction outpoints generalizing watch with
  | nil =>
      simp
  | cons outpoint rest inductionHypothesis =>
      rw [List.foldl_cons, inductionHypothesis, mem_outpoints_remove,
        List.mem_cons]
      tauto

end WatchableSet

theorem SpCoinStore.watched_of_watchable
    {coins : SpCoinStore}
    {sweepStart : Nat}
    {outpoint : OutPoint}
    (listed : outpoint ∈ (coins.watchable sweepStart).map Prod.fst) :
    coins.Watched outpoint := by
  obtain ⟨⟨_, height⟩, member, rfl⟩ := List.mem_map.mp listed
  obtain ⟨⟨key, entry⟩, stored, kept⟩ := List.mem_filterMap.mp member
  have found : coins.get key = some entry :=
    Std.ExtTreeMap.mem_toList_iff_getElem?_eq_some.mp stored
  dsimp only at kept
  split at kept
  · next unspent =>
      cases kept
      exact ⟨entry, found, by
        rw [unspent]
        rfl⟩
  · next txid unconfirmed =>
      cases kept
      exact ⟨entry, found, by
        rw [unconfirmed]
        rfl⟩
  · cases kept

theorem SpCoinStore.Watched.recordInputs
    {stores : ScanStores}
    {outpoint : OutPoint}
    (watched : stores.coins.Watched outpoint)
    (times : Nat → Option Nat)
    (blockHash : BlockHash)
    (height : Nat)
    {spent : BTreeSet OutPoint}
    (unspent : outpoint ∉ spent) :
    (stores.recordInputs times blockHash height spent).coins.Watched
      outpoint := by
  obtain ⟨entry, found, watching⟩ := watched
  refine ⟨entry, ?_, watching⟩
  rw [ScanStores.get_coins_recordInputs, if_neg unspent]
  exact found

namespace ScanRules

variable
    {script : ScanScript}
    {start stop lowest : Nat}
    {inv : ScanStores → Prop}
    (rules : ScanRules script start stop lowest inv)

include rules

theorem saveState_keeps :
    Keeps inv (modify ScanStores.saveState : ScanM Unit) :=
  Holds.modify rules.save

theorem checkpointSpend_keeps (height : Nat) :
    Keeps inv (checkpointSpend height) :=
  Keeps.bind
    (Holds.modify (fun stores holds =>
      rules.spendFrontier stores height holds))
    (fun _ => rules.saveState_keeps)

theorem interruptSweep_keeps (cursor : Nat) :
    Keeps inv (interruptSweep cursor) :=
  Holds.ite (fun _ => Keeps.throw) (fun _ =>
    Keeps.bind (rules.checkpointSpend_keeps _) (fun _ =>
      Keeps.bind Keeps.get (fun _ => Keeps.pure)))

theorem completeSweep_keeps :
    Keeps inv (do
      checkpointSpend stop
      pure .completed : ScanM SpScanOutcome) :=
  Keeps.bind (rules.checkpointSpend_keeps _) (fun _ => Keeps.pure)

theorem checkpointSpend_watching
    (outpoints : BTreeSet OutPoint)
    (height : Nat) :
    Keeps
      (fun stores =>
        inv stores ∧ ∀ outpoint ∈ outpoints, stores.coins.Watched outpoint)
      (checkpointSpend height) := by
  refine Keeps.bind (Holds.modify ?_) (fun _ => Holds.modify ?_)
  · rintro stores ⟨holds, watched⟩
    exact ⟨rules.spendFrontier stores height holds, watched⟩
  · rintro stores ⟨holds, watched⟩
    refine ⟨rules.save stores holds, ?_⟩
    intro outpoint member
    obtain ⟨entry, found, watching⟩ := watched outpoint member
    exact ⟨entry, by simpa [ScanStores.saveState] using found, watching⟩

theorem recordSpent_watching
    {watch : WatchableSet}
    {request cursor : Nat}
    {blockHash : BlockHash}
    {spent : BTreeSet OutPoint}
    (answer :
      script.sweep.next request cursor watch.outpoints =
        .ok (blockHash, spent))
    (low : lowest ≤ cursor)
    (high : cursor ≤ stop) :
    Holds
      (fun stores =>
        inv stores ∧
          ∀ outpoint ∈ watch.outpoints, stores.coins.Watched outpoint)
      (recordSpent script.times blockHash cursor spent)
      (fun _ stores =>
        inv stores ∧
          ∀ outpoint ∈
              (spent.toList.foldl WatchableSet.remove watch).outpoints,
            stores.coins.Watched outpoint)
      (fun _ => inv) := by
  have listed := fun outpoint member =>
    script.sweep.watched answer outpoint member
  refine Holds.ite (fun _ => Holds.pure ?_) (fun _ => Holds.modify ?_)
  · rintro stores ⟨holds, watched⟩
    refine ⟨holds, ?_⟩
    intro outpoint member
    rw [WatchableSet.mem_outpoints_foldl_remove] at member
    exact watched outpoint member.2
  · rintro stores ⟨holds, watched⟩
    refine ⟨rules.inputs stores request cursor _ blockHash spent answer low high
      (fun outpoint member => watched outpoint (listed outpoint member))
      holds, ?_⟩
    intro outpoint member
    rw [WatchableSet.mem_outpoints_foldl_remove,
      Std.ExtTreeSet.mem_toList] at member
    exact (watched outpoint member.2).recordInputs _ _ _ member.1

theorem runSweep_keeps
    (fuel request : Nat)
    (watch : WatchableSet)
    {cursor : Nat}
    (low : lowest ≤ cursor) :
    Holds
      (fun stores =>
        inv stores ∧
          ∀ outpoint ∈ watch.outpoints, stores.coins.Watched outpoint)
      (runSweep script.times script.sweep stop fuel request watch cursor)
      (fun _ => inv) (fun _ => inv) := by
  induction fuel generalizing request watch cursor low with
  | zero =>
      exact Holds.weaken inv (fun _ holds => holds.1)
        rules.completeSweep_keeps
  | succ fuel inductionHypothesis =>
      rw [runSweep]
      refine Holds.ite (fun high => ?_) (fun _ =>
        Holds.weaken inv (fun _ holds => holds.1) rules.completeSweep_keeps)
      refine Holds.ite (fun _ =>
        Holds.weaken inv (fun _ holds => holds.1)
          (rules.interruptSweep_keeps cursor)) (fun _ => ?_)
      cases answer : script.sweep.next request cursor watch.outpoints with
      | error reason =>
          exact Holds.throw (fun _ holds => holds.1)
      | ok found =>
          obtain ⟨blockHash, spent⟩ := found
          refine Holds.bind (rules.recordSpent_watching answer low high)
            (fun _ => ?_)
          generalize spent.toList.foldl WatchableSet.remove watch = watch
          have dropFail :
              ∀ {body : ScanM Unit},
                Keeps
                  (fun stores =>
                    inv stores ∧ ∀ outpoint ∈ watch.outpoints,
                      stores.coins.Watched outpoint) body →
                Holds
                  (fun stores =>
                    inv stores ∧ ∀ outpoint ∈ watch.outpoints,
                      stores.coins.Watched outpoint) body
                  (fun _ stores =>
                    inv stores ∧ ∀ outpoint ∈ watch.outpoints,
                      stores.coins.Watched outpoint)
                  (fun _ => inv) :=
            fun keeps => Holds.conseq keeps (fun _ holds => holds)
              (fun _ _ reached => reached) (fun _ _ failed => failed.1)
          have due :
              Keeps
                (fun stores =>
                  inv stores ∧ ∀ outpoint ∈ watch.outpoints,
                    stores.coins.Watched outpoint)
                (checkpointSpendIf (script.sweep.checkpoint request) cursor) :=
            Holds.ite
              (fun _ => rules.checkpointSpend_watching watch.outpoints cursor)
              (fun _ => Keeps.pure)
          refine Holds.bind (dropFail due) (fun _ => ?_)
          cases watch.floor with
          | none =>
              exact Holds.weaken inv (fun _ holds => holds.1)
                rules.completeSweep_keeps
          | some floor =>
              refine Holds.ite (fun above => ?_) (fun _ =>
                inductionHypothesis _ _ (by omega))
              exact Holds.bind
                (dropFail (rules.checkpointSpend_watching watch.outpoints _))
                (fun _ => inductionHypothesis _ _ (by omega))

theorem processSpends_keeps :
    Keeps inv (processSpends script start stop) := by
  refine Holds.bindRead (fun stores holds => ?_)
  have watched :
      ∀ outpoint ∈
          (WatchableSet.new (stores.coins.watchable
            (stores.effectiveSpendStart start))).outpoints,
        stores.coins.Watched outpoint := by
    intro outpoint member
    rw [WatchableSet.mem_outpoints_new] at member
    exact SpCoinStore.watched_of_watchable member
  have started : ∀ state, state = stores → inv state := by
    rintro state rfl
    exact holds
  dsimp only
  split
  · exact Holds.weaken inv started rules.completeSweep_keeps
  · refine Holds.ite
      (fun _ => Holds.weaken inv started rules.completeSweep_keeps)
      (fun _ => ?_)
    have low := rules.resumes stores holds
    refine Holds.weaken _ ?_
      (rules.runSweep_keeps _ _ _ (Nat.le_trans low (Nat.le_max_left _ _)))
    rintro state rfl
    exact ⟨holds, watched⟩

theorem startSpendFrontier_keeps (from_ : Nat) :
    Keeps inv (startSpendFrontier from_) :=
  Holds.bindGet (fun _ _ => Holds.ite
    (fun _ => rules.checkpointSpend_keeps _) (fun _ => Keeps.pure))

end ScanRules

end Bwk
