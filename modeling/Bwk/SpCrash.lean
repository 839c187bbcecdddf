import Bwk.SpReorg

namespace Bwk

/-!
# A rollback that is cut short

A rollback writes the coins, the transactions, the kept hashes and the scalar
rows, in this order.  The next start reads back whatever was written.  Between
the hashes and the scalars the frontier is still the old one while the hashes
that would show the fork are gone.
-/

namespace ScanStores

/-- The stores once a rollback has made its first writes. -/
def rollBackUntil
    (writes : Nat)
    (forkHeight : Nat)
    (reorged : List BlockHash)
    (stores : ScanStores) : ScanStores :=
  let rolled := stores.coins.rollBack forkHeight reorged
  let coins := rolled.persist
  let txs := stores.txs.rollBack forkHeight coins.spendingTxids
  let state := stores.state.rollBack forkHeight
  match writes with
  | 0 => { stores with coins := rolled }
  | 1 => { stores with coins := coins, txs := txs }
  | 2 => ⟨coins, txs.persist, state⟩
  | 3 => ⟨coins, txs.persist, state.flushHashes.2⟩
  | _ => ⟨coins, txs.persist, state.persist⟩

/-- What a new start reads back of the stores. -/
def reopened (birthday : Nat) (stores : ScanStores) : ScanStores where
  coins := SpCoinStore.loadFromBackend stores.coins.store.backend
  txs := SpTxStore.loadFromBackend stores.txs.store.backend
  state :=
    ScanState.loadFromBackend birthday stores.state.blockHashes.backend
      stores.state.backend

end ScanStores

theorem RamStore.backend_removeAll
    {Backend Key Value : Type}
    [Ord Key] [Std.TransOrd Key]
    (store : RamStore Backend Key Value)
    (keys : List Key) :
    (store.removeAll keys).backend = store.backend := by
  induction keys generalizing store with
  | nil =>
      rfl
  | cons key rest inductionHypothesis =>
      exact inductionHypothesis (store.remove key)

namespace ScanState

/-- The marks of the kept hashes are right, and no write fails. -/
structure Writable (state : ScanState) : Prop where
  coherent : state.blockHashes.Coherent
  hashWrites : state.blockHashes.backend.faults = []
  scalarWrites : state.backend.faults = []

/-- What the backends hold is the state. -/
structure Saved (state : ScanState) : Prop where
  writable : state.Writable
  hashes : state.blockHashes.backend.rows = state.scanned
  last : state.backend.lastScannedHeight.join = state.lastScannedHeight

variable {state : ScanState}

theorem Writable.flushHashes
    (writable : state.Writable) :
    state.flushHashes.1 = .ok () ∧ state.flushHashes.2.Writable ∧
      state.flushHashes.2.blockHashes.backend.rows = state.scanned ∧
      state.flushHashes.2.scanned = state.scanned := by
  have flushed :
      state.blockHashes.flush.1 = .ok () ∧
        state.blockHashes.flush.2.backend.faults = [] := by
    unfold RamStore.flush
    split
    · exact ⟨rfl, writable.hashWrites⟩
    · have written :
          PersistenceBackend.flushBatch state.blockHashes.backend
              state.blockHashes.pending state.blockHashes.removed.toList =
            (.ok (),
              (⟨(state.blockHashes.backend.rows.eraseAll
                    state.blockHashes.removed.toList).insertAll
                  state.blockHashes.pending, []⟩ :
                RowBackend Nat BlockHash)) := by
        simp [PersistenceBackend.flushBatch, writable.hashWrites, nextWrite]
      rw [written]
      exact ⟨rfl, rfl⟩
  have outcome :
      state.blockHashes.flush = (.ok (), state.blockHashes.flush.2) := by
    rw [← flushed.1]
  refine ⟨flushed.1, ⟨?_, flushed.2, writable.scalarWrites⟩, ?_, ?_⟩
  · exact writable.coherent.flush
  · exact writable.coherent.rows_of_flush outcome
  · exact RamStore.cache_flush ..

theorem Writable.persist
    (writable : state.Writable) :
    state.persist.Saved := by
  obtain ⟨outcome, after, rows, same⟩ := writable.flushHashes
  have shape : state.persist = state.flushHashes.2.flushScalars := by
    unfold ScanState.persist
    cases flushed : state.flushHashes with
    | mk result left_ =>
        rw [flushed] at outcome
        cases outcome
        rfl
  have scalars :
      state.flushHashes.2.flushScalars =
        { state.flushHashes.2 with
          backend :=
            { lastScannedHeight := some state.lastScannedHeight
              birthdayHeight := some state.birthdayHeight
              lastSpendHeight := some state.lastSpendHeight
              faults := [] } } := by
    unfold ScanState.flushScalars
    rw [after.scalarWrites]
    rfl
  rw [shape, scalars]
  refine ⟨⟨after.coherent, after.hashWrites, rfl⟩, ?_, rfl⟩
  exact rows.trans same.symm

theorem Writable.dropBlockHashes
    (writable : state.Writable)
    (drop : Nat → Bool) :
    (state.dropBlockHashes drop).Writable where
  coherent := writable.coherent.removeAll _
  hashWrites := by
    have same :
        (state.dropBlockHashes drop).blockHashes.backend =
          state.blockHashes.backend :=
      RamStore.backend_removeAll ..
    rw [same]
    exact writable.hashWrites
  scalarWrites := writable.scalarWrites

theorem Writable.advanceFrontier
    (writable : state.Writable)
    (height : Nat)
    (blockHash : BlockHash) :
    (state.advanceFrontier height blockHash).Writable := by
  unfold ScanState.advanceFrontier
  split
  · have inserted :
        Writable
          { state with
            lastScannedHeight := some height
            blockHashes := state.blockHashes.insert height blockHash } :=
      ⟨writable.coherent.insert height blockHash, writable.hashWrites,
        writable.scalarWrites⟩
    exact inserted.dropBlockHashes _
  · exact writable

theorem Writable.advanceTo
    (writable : state.Writable)
    (hashes : BTreeMap Nat BlockHash)
    (start tip : Nat) :
    (state.advanceTo hashes start tip).Writable := by
  unfold ScanState.advanceTo
  dsimp only
  generalize List.range' _ _ = heights
  induction heights generalizing state with
  | nil =>
      exact writable
  | cons height above inductionHypothesis =>
      refine inductionHypothesis ?_
      unfold ScanState.advanceAt
      split
      · exact writable.advanceFrontier ..
      · exact writable

theorem Writable.advanceSpendFrontier
    (writable : state.Writable)
    (height : Nat) :
    (state.advanceSpendFrontier height).Writable := by
  unfold ScanState.advanceSpendFrontier
  split
  · exact ⟨writable.coherent, writable.hashWrites, writable.scalarWrites⟩
  · exact writable

theorem Writable.rollBack
    (writable : state.Writable)
    (forkHeight : Nat) :
    (state.rollBack forkHeight).Writable := by
  have moved :
      Writable
        { state with
          lastScannedHeight := some forkHeight
          lastSpendHeight :=
            state.lastSpendHeight.map (fun height => min height forkHeight) } :=
    ⟨writable.coherent, writable.hashWrites, writable.scalarWrites⟩
  exact moved.dropBlockHashes _

end ScanState

variable {stores : ScanStores}

theorem ScanInput.saved_after
    (saved : stores.state.Saved)
    (input : ScanInput) :
    (input.after stores).state.Saved := by
  have passes :
      ∀ (input : ScanInput) (stores : ScanStores), stores.state.Saved →
        (finalState (input.unforkedScan stores)).state.Saved := by
    intro input stores saved
    refine Holds.finalState
      (ScanInput.unforkedScan_keepsState ScanState.Saved ?_ ?_ ?_) stores saved
    · exact fun state tip hashes _ _ _ saved =>
        (saved.writable.advanceTo hashes input.start tip).persist
    · exact fun state height saved =>
        (saved.writable.advanceSpendFrontier height).persist
    · exact fun state saved => saved.writable.persist
  rcases input.after_cases stores with
    ⟨_, _, same⟩ | ⟨_, run⟩ | ⟨forkHeight, _, run⟩
  · rw [same]
    exact saved
  · rw [run]
    exact passes input (input.restamped stores) saved
  · rw [run]
    exact passes _ _ (saved.writable.rollBack forkHeight).persist

theorem lastScannedHeight_reopened
    (saved : stores.state.Saved)
    (birthday forkHeight : Nat)
    (reorged : List BlockHash)
    {writes : Nat}
    (some_ : writes ≤ 4) :
    ((stores.rollBackUntil writes forkHeight reorged).reopened
        birthday).state.lastScannedHeight =
      if writes = 4 then
        some forkHeight
      else
        stores.state.lastScannedHeight := by
  have rolled := saved.writable.rollBack forkHeight
  interval_cases writes
  · exact saved.last
  · exact saved.last
  · exact saved.last
  · exact saved.last
  · exact rolled.persist.last.trans (by simp; rfl)

theorem scanned_reopened
    (saved : stores.state.Saved)
    (birthday forkHeight : Nat)
    (reorged : List BlockHash)
    {writes : Nat}
    (some_ : writes ≤ 4) :
    ((stores.rollBackUntil writes forkHeight reorged).reopened
        birthday).state.scanned =
      if 3 ≤ writes then
        (stores.state.rollBack forkHeight).scanned
      else
        stores.state.scanned := by
  have rolled := saved.writable.rollBack forkHeight
  have unwritten :
      (stores.state.rollBack forkHeight).blockHashes.backend =
        stores.state.blockHashes.backend :=
    RamStore.backend_removeAll ..
  interval_cases writes
  · exact saved.hashes
  · exact saved.hashes
  · have rows :
        (stores.state.rollBack forkHeight).blockHashes.backend.rows =
          stores.state.scanned := by
      rw [unwritten, saved.hashes]
    exact rows
  · exact rolled.flushHashes.2.2.1
  · exact rolled.persist.hashes.trans (by simp)

section NextScan

variable
    {stores : ScanStores}
    {forkHeight : Nat}

/-- Above the fork nothing is below the frontier that the scan did not
commit. -/
def FetchedAbove
    (forkHeight : Nat)
    (input : ScanInput)
    (stores : ScanStores) : Prop :=
  ∀ last, (input.after stores).state.lastScannedHeight = some last →
    ∀ height, forkHeight < height → height ≤ last →
      ∃ block ∈ input.committed stores, block.height = height

variable {chainHash : Nat → Nat → Except ScanError BlockHash}
variable {input : ScanInput}

theorem findFork_rolledBack
    {chain : Nat → BlockHash}
    (answers :
      ∀ height ∈ stores.state.scanned, ∀ depth,
        chainHash depth height = .ok (chain height))
    (found :
      findFork chainHash stores.state.scanned = .ok (some forkHeight)) :
    findFork chainHash (stores.state.rollBack forkHeight).scanned =
      .ok none := by
  have member := findFork_mem found
  have chained : ∃ hash, stores.state.scanned[forkHeight]? = some hash ∧
      chain forkHeight = hash := by
    unfold findFork at found
    split at found
    · cases found
    · obtain ⟨hash, depth, listed, known⟩ := searchFork_some found
      have stored :=
        Std.ExtTreeMap.mem_toList_iff_getElem?_eq_some.mp
          (List.mem_reverse.mp listed)
      rw [answers forkHeight member depth] at known
      exact ⟨hash, stored, Except.ok.inj known⟩
  obtain ⟨hash, stored, same⟩ := chained
  have left_ :
      ∀ height,
        (stores.state.rollBack forkHeight).scanned[height]? =
          if height > forkHeight then none
          else stores.state.scanned[height]? := by
    intro height
    rw [ScanState.rollBack, ScanState.getElem?_scanned_dropBlockHashes]
    simp only [decide_eq_true_eq]
    rfl
  have kept :
      (stores.state.rollBack forkHeight).scanned[forkHeight]? = some hash := by
    rw [left_, if_neg (Nat.lt_irrefl _), stored]
  have nonempty :
      (stores.state.rollBack forkHeight).scanned.isEmpty = false := by
    rw [Std.ExtTreeMap.isEmpty_eq_false_iff]
    intro empty
    rw [empty] at kept
    simp at kept
  unfold findFork
  rw [nonempty, if_neg (by simp)]
  cases listed :
      (stores.state.rollBack forkHeight).scanned.toList.reverse with
  | nil =>
      have present :=
        mem_newestFirst.mpr
          (BTreeMap.mem_iff_getElem?.mpr ⟨hash, kept⟩)
      rw [listed] at present
      cases present
  | cons newest below =>
      obtain ⟨height, newestHash⟩ := newest
      -- The newest hash left is the fork's own.
      have newestStored :
          (stores.state.rollBack forkHeight).scanned[height]? =
            some newestHash := by
        refine Std.ExtTreeMap.mem_toList_iff_getElem?_eq_some.mp ?_
        rw [← List.mem_reverse, listed]
        exact List.mem_cons_self
      have low : height ≤ forkHeight := by
        by_contra above
        rw [left_, if_pos (by omega)] at newestStored
        cases newestStored
      have high : forkHeight ≤ height := by
        have sorted :
            (((stores.state.rollBack forkHeight).scanned.toList.reverse).map
              Prod.fst).Pairwise (fun above below => below < above) := by
          rw [List.map_reverse, Std.ExtTreeMap.map_fst_toList_eq_keys,
            List.pairwise_reverse]
          exact BTreeMap.keys_sorted _
        have present :=
          mem_newestFirst.mpr
            (BTreeMap.mem_iff_getElem?.mpr ⟨hash, kept⟩)
        rw [listed, List.map_cons] at sorted present
        rcases List.mem_cons.mp present with here | later
        · exact Nat.le_of_eq here
        · exact Nat.le_of_lt (List.rel_of_pairwise_cons sorted later)
      have at_ : height = forkHeight := Nat.le_antisymm low high
      subst at_
      rw [newestStored] at kept
      cases kept
      rw [searchFork, answers height member 0]
      dsimp only
      rw [if_pos same]
      simp

theorem fetchedAbove_of_kept
    {stop : Nat}
    {before state : ScanState}
    {committed : List BlockOutcome}
    (kept : FrontierKept (forkHeight + 1) stop before committed state)
    (atFork : before.lastScannedHeight = some forkHeight) :
    ∀ last, state.lastScannedHeight = some last →
      ∀ height, forkHeight < height → height ≤ last →
        ∃ block ∈ committed, block.height = height := by
  intro last reached height above below
  rcases kept with ⟨same, _⟩ | ⟨last', moved⟩
  · rw [same, atFork] at reached
    cases reached
    omega
  · rw [moved.reached] at reached
    cases reached
    exact moved.blocks height above below

theorem fetchedAbove_of_no_fork
    (none_ : findFork input.script.chainHash stores.state.scanned = .ok none)
    (atFork : stores.state.lastScannedHeight = some forkHeight)
    (resumes : input.start = forkHeight + 1) :
    FetchedAbove forkHeight input stores := by
  rcases input.after_cases stores with
    ⟨_, failed, _⟩ | ⟨_, run⟩ | ⟨_, found, _⟩
  · rw [none_] at failed
    cases failed
  · unfold FetchedAbove ScanInput.committed
    rw [run, none_]
    have kept := input.frontier_unforkedScan (input.restamped stores)
    rw [resumes] at kept
    exact fetchedAbove_of_kept kept atFork
  · rw [none_] at found
    cases found

theorem fetchedAbove_of_fork
    (fork :
      findFork input.script.chainHash stores.state.scanned =
        .ok (some forkHeight))
    (above : forkHeight + 1 ≤ input.start) :
    FetchedAbove forkHeight input stores := by
  rcases input.after_cases stores with
    ⟨_, failed, _⟩ | ⟨none_, _⟩ | ⟨forkHeight', found, run⟩
  · rw [fork] at failed
    cases failed
  · rw [fork] at none_
    cases none_
  · rw [fork] at found
    cases found
    unfold FetchedAbove ScanInput.committed
    rw [run, fork]
    have kept :=
      (input.startingAt
        (min input.start (forkHeight + 1))).frontier_unforkedScan
          (input.restamped
            (stores.rollBack forkHeight
              (reorgedHashes stores.state.scanned forkHeight)))
    have start_ :
        (input.startingAt (min input.start (forkHeight + 1))).start =
          forkHeight + 1 :=
      Nat.min_eq_right above
    rw [start_] at kept
    refine fetchedAbove_of_kept kept ?_
    exact congrArg ReceiveSide.last
      (receiveSide_rollBack forkHeight
        (reorgedHashes stores.state.scanned forkHeight) stores)

theorem not_fetchedAbove_of_skipped
    (none_ : findFork input.script.chainHash stores.state.scanned = .ok none)
    {last : Nat}
    (reached : stores.state.lastScannedHeight = some last)
    (replaced : forkHeight < last)
    (resumes : input.start = last + 1) :
    ¬ FetchedAbove forkHeight input stores := by
  intro fetched
  have further :
      ∃ last', (input.after stores).state.lastScannedHeight = some last' ∧
        last ≤ last' := by
    rcases input.after_cases stores with
      ⟨_, failed, _⟩ | ⟨_, run⟩ | ⟨_, found, _⟩
    · rw [none_] at failed
      cases failed
    · rw [run]
      rcases input.frontier_unforkedScan (input.restamped stores) with
        ⟨same, _⟩ | ⟨last', moved⟩
      · exact ⟨last, same.trans reached, Nat.le_refl _⟩
      · have low := moved.low
        exact ⟨last', moved.reached, by omega⟩
    · rw [none_] at found
      cases found
  obtain ⟨last', moved, low⟩ := further
  obtain ⟨block, member, there⟩ :=
    fetched last' moved (forkHeight + 1) (by omega) (by omega)
  unfold ScanInput.committed at member
  rw [none_] at member
  dsimp only at member
  unfold ScanInput.delivered at member
  split at member
  · have inRange := (mem_committedBlocks member).2
    omega
  · cases member

end NextScan

/--
Whatever a rollback wrote before it was cut short, the next scan fetches every
block above the fork, except where the hashes were written and the scalars
were not.
-/
theorem cut_rollBack_fetches_iff
    {stores : ScanStores}
    (saved : stores.state.Saved)
    {last forkHeight : Nat}
    (reached : stores.state.lastScannedHeight = some last)
    (replaced : forkHeight < last)
    (birthday : Nat)
    {writes : Nat}
    (some_ : writes ≤ 4)
    {input : ScanInput}
    (resumes :
      input.start =
        ((stores.rollBackUntil writes forkHeight
          (reorgedHashes stores.state.scanned forkHeight)).reopened
            birthday).state.nextScanStart)
    {chain : Nat → BlockHash}
    (answers :
      ∀ height ∈ stores.state.scanned, ∀ depth,
        input.script.chainHash depth height = .ok (chain height))
    (found :
      findFork input.script.chainHash stores.state.scanned =
        .ok (some forkHeight)) :
    FetchedAbove forkHeight input
        ((stores.rollBackUntil writes forkHeight
          (reorgedHashes stores.state.scanned forkHeight)).reopened
            birthday) ↔
      writes ≠ 3 := by
  have lastRead :=
    lastScannedHeight_reopened saved birthday forkHeight
      (reorgedHashes stores.state.scanned forkHeight) some_
  have hashesRead :=
    scanned_reopened saved birthday forkHeight
      (reorgedHashes stores.state.scanned forkHeight) some_
  unfold ScanState.nextScanStart at resumes
  rw [lastRead] at resumes
  have gone := findFork_rolledBack answers found
  by_cases early : writes < 3
  · rw [if_neg (by omega), reached] at resumes
    rw [if_neg (by omega)] at hashesRead
    refine ⟨fun _ => by omega, fun _ => fetchedAbove_of_fork ?_ ?_⟩
    · rw [hashesRead]
      exact found
    · rw [resumes]
      dsimp only
      omega
  · rw [if_pos (by omega)] at hashesRead
    rw [← hashesRead] at gone
    by_cases all : writes = 4
    · rw [if_pos all] at lastRead resumes
      exact ⟨fun _ => by omega,
        fun _ => fetchedAbove_of_no_fork gone lastRead resumes⟩
    · rw [if_neg all, reached] at resumes
      rw [if_neg all, reached] at lastRead
      constructor
      · intro fetched
        exact absurd fetched
          (not_fetchedAbove_of_skipped gone lastRead replaced resumes)
      · intro other
        omega

namespace ResumedRun

open ScanRun

/-- The wallet once blocks 10 and 11 are scanned. -/
def sampleTwice : ScanStores :=
  (sampleScan 11).after ((sampleScan 10).after sampleWallet)

def replacedChain (height : Nat) : BlockHash :=
  if height ≤ 10 then sampleHash height else 0

/-- A scan of block 12 of that chain. -/
def replacedScan : ScanInput where
  script :=
    { times := fun _ => none
      chainHash := fun _ height => .ok (replacedChain height)
      arrivals := [⟨.ok ⟨12, replacedChain 12, ∅⟩, false, false⟩]
      stopAtEnd := false
      sweep := unanswered }
  start := 12
  stop := 12

theorem sampleTwice_saved : sampleTwice.state.Saved := by
  have fresh : sampleWallet.state.Saved := by
    refine ⟨⟨⟨?_, ?_, ?_⟩, rfl, rfl⟩, rfl, rfl⟩
    · intro height marked
      simp [sampleWallet, ScanState.withBackend, RamStore.empty] at marked
    · intro height marked
      simp [sampleWallet, ScanState.withBackend, RamStore.empty] at marked
    · intro height _ _
      rfl
  exact ScanInput.saved_after (ScanInput.saved_after fresh _) _

/-- A rollback cut short between the hashes and the scalars loses block 11. -/
theorem cut_rollBack_skips_block :
    ¬ ∀ (stores : ScanStores) last forkHeight birthday writes
        (input : ScanInput) (chain : Nat → BlockHash),
        stores.state.Saved →
        stores.state.lastScannedHeight = some last → forkHeight < last →
        writes ≤ 4 →
        input.start =
            ((stores.rollBackUntil writes forkHeight
              (reorgedHashes stores.state.scanned forkHeight)).reopened
                birthday).state.nextScanStart →
        (∀ height ∈ stores.state.scanned, ∀ depth,
          input.script.chainHash depth height = .ok (chain height)) →
        findFork input.script.chainHash stores.state.scanned =
            .ok (some forkHeight) →
        FetchedAbove forkHeight input
          ((stores.rollBackUntil writes forkHeight
            (reorgedHashes stores.state.scanned forkHeight)).reopened
              birthday) := by
  intro always
  have fetched :=
    always sampleTwice 11 10 10 3 replacedScan replacedChain
      sampleTwice_saved (by decide +kernel) (by decide) (by decide)
      (by decide +kernel) (fun _ _ _ => rfl) (by decide +kernel)
  obtain ⟨block, member, there⟩ :=
    fetched 12 (by decide +kernel) 11 (by decide) (by decide)
  have heights :
      (replacedScan.committed
        ((sampleTwice.rollBackUntil 3 10
          (reorgedHashes sampleTwice.state.scanned 10)).reopened
            10)).map BlockOutcome.height =
        [12] := by
    decide +kernel
  have listed := List.mem_map_of_mem (f := BlockOutcome.height) member
  rw [heights, there] at listed
  simp at listed

/-- Cut short before the hashes are written, it loses nothing. -/
theorem cut_rollBack_fetches_early :
    FetchedAbove 10 replacedScan
      ((sampleTwice.rollBackUntil 2 10
        (reorgedHashes sampleTwice.state.scanned 10)).reopened 10) :=
  (cut_rollBack_fetches_iff sampleTwice_saved
    (show sampleTwice.state.lastScannedHeight = some 11 by decide +kernel)
    (show 10 < 11 by decide) 10 (show 2 ≤ 4 by decide)
    (by decide +kernel) (fun _ _ _ => rfl) (by decide +kernel)).mpr
    (by decide)

end ResumedRun

end Bwk
