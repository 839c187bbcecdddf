import Bwk.SpReceive

namespace Bwk

/-!
# The receive frontier over a run of scans

A run scans ranges with any start, and each scan may be interrupted or fail.
A scan records its frontier only over blocks it committed, but the frontier
says that everything below it is scanned only while no scan of the run starts
above the first height not scanned yet.
-/

/-- One scan: its range, and what it learns from outside. -/
structure ScanInput where
  script : ScanScript
  start : Nat
  stop : Nat

namespace ScanInput

variable (input : ScanInput) (stores : ScanStores)

/-- The stores a scan leaves, however it ends. -/
def after : ScanStores :=
  finalState (processScan input.script input.start input.stop stores)

/-- No kept block was replaced. -/
def Unforked : Prop :=
  ∀ height hash, stores.state.scanned[height]? = some hash →
    ∀ depth answer, input.script.chainHash depth height = .ok answer →
      answer = hash

/-- The blocks the passes of a scan commit. -/
def delivered : List BlockOutcome :=
  if input.start ≤ input.stop then
    committedBlocks input.start input.stop input.script.arrivals
  else
    []

/-- A scan from `start` instead. -/
def startingAt (start : Nat) : ScanInput :=
  { input with start := start }

/-- The blocks a scan commits; above the fork, if there is one. -/
def committed : List BlockOutcome :=
  match findFork input.script.chainHash stores.state.scanned with
  | .error _ => []
  | .ok none => input.delivered
  | .ok (some forkHeight) =>
      (input.startingAt (min input.start (forkHeight + 1))).delivered

/-- Where the wallet's scanned heights begin, once a scan has moved the
frontier. -/
def firstScanned (first : Option Nat) : Option Nat :=
  match first with
  | some low => some low
  | none =>
      if (input.after stores).state.lastScannedHeight.isSome then
        some input.start
      else
        none

def unforkedScan (input : ScanInput) : ScanM SpScanOutcome := do
  startSpendFrontier input.start
  scanPasses input.script input.start input.stop

/-- A wallet with the missing block times stamped. -/
def restamped : ScanStores :=
  { stores with
    txs := stores.txs.restampMissingTimestamps input.script.times }

end ScanInput

/-- A scanned wallet: its first scanned height and the blocks it committed. -/
inductive ScanRun (admits : ScanStores → ScanInput → Prop) :
    Option Nat → List BlockOutcome → ScanStores → Prop where
  | fresh stores :
      stores.state.lastScannedHeight = none →
      stores.state.lastSpendHeight = none →
      stores.state.scanned = ∅ →
      (∀ outpoint, stores.coins.get outpoint = none) →
      ScanRun admits none [] stores
  | scan {first history stores} (input : ScanInput) :
      ScanRun admits first history stores →
      input.Unforked stores →
      admits stores input →
      ScanRun admits (input.firstScanned stores first)
        (history ++ input.committed stores) (input.after stores)

theorem findFork_unforked
    {chainHash : Nat → Nat → Except ScanError BlockHash}
    {scanned : BTreeMap Nat BlockHash}
    (same :
      ∀ height hash, scanned[height]? = some hash →
        ∀ depth answer, chainHash depth height = .ok answer → answer = hash) :
    findFork chainHash scanned = .ok none ∨
      ∃ reason, findFork chainHash scanned = .error reason := by
  unfold findFork
  by_cases empty : scanned.isEmpty = true
  · rw [if_pos empty]
    exact Or.inl rfl
  · rw [if_neg empty]
    cases kept : scanned.toList.reverse with
    | nil =>
        exact Or.inr ⟨_, rfl⟩
    | cons newest below =>
        obtain ⟨height, hash⟩ := newest
        have member : (height, hash) ∈ scanned.toList := by
          rw [← List.mem_reverse, kept]
          exact List.mem_cons_self
        have found :=
          Std.ExtTreeMap.mem_toList_iff_getElem?_eq_some.mp member
        rw [searchFork]
        cases answer : chainHash 0 height with
        | error reason =>
            exact Or.inr ⟨reason, rfl⟩
        | ok chain =>
            rw [same height hash found 0 chain answer]
            left
            simp

/-- A scan fails on its fork search, or goes to its passes; from a fork, on
the stores rolled back to it. -/
theorem ScanInput.after_cases (input : ScanInput) (stores : ScanStores) :
    (∃ reason,
      findFork input.script.chainHash stores.state.scanned = .error reason ∧
        input.after stores = stores) ∨
      (findFork input.script.chainHash stores.state.scanned = .ok none ∧
        input.after stores =
          finalState (input.unforkedScan (input.restamped stores))) ∨
      ∃ forkHeight,
        findFork input.script.chainHash stores.state.scanned =
            .ok (some forkHeight) ∧
          input.after stores =
            finalState
              ((input.startingAt
                (min input.start (forkHeight + 1))).unforkedScan
                (input.restamped
                  (stores.rollBack forkHeight
                    (reorgedHashes stores.state.scanned forkHeight)))) := by
  cases found : findFork input.script.chainHash stores.state.scanned with
  | error reason =>
      have failed :
          handleReorg input.script input.start stores =
            .error reason stores := by
        rw [handleReorg, get_bind_apply, found]
        rfl
      refine Or.inl ⟨reason, rfl, ?_⟩
      rw [after, processScan, bind_apply_error failed]
      rfl
  | ok fork =>
      cases fork with
      | none =>
          have same :
              handleReorg input.script input.start stores =
                .ok input.start stores := by
            rw [handleReorg, get_bind_apply, found]
            rfl
          refine Or.inr (Or.inl ⟨rfl, ?_⟩)
          rw [after, processScan, bind_apply_ok same]
          rfl
      | some forkHeight =>
          have rolled :
              handleReorg input.script input.start stores =
                .ok (min input.start (forkHeight + 1))
                  (stores.rollBack forkHeight
                    (reorgedHashes stores.state.scanned forkHeight)) := by
            rw [handleReorg, get_bind_apply, found]
            rfl
          refine Or.inr (Or.inr ⟨forkHeight, rfl, ?_⟩)
          rw [after, processScan, bind_apply_ok rolled]
          rfl

variable {stores : ScanStores}

/-- Without a fork a scan goes straight to its passes, or fails at once. -/
theorem ScanInput.Unforked.processScan
    {input : ScanInput}
    (unforked : input.Unforked stores) :
    (input.committed stores = [] ∧ input.after stores = stores) ∨
      input.committed stores = input.delivered ∧
        input.after stores =
          finalState (input.unforkedScan (input.restamped stores)) := by
  rcases input.after_cases stores with
    ⟨reason, failed, same⟩ | ⟨found, run⟩ | ⟨forkHeight, found, _⟩
  · refine Or.inl ⟨?_, same⟩
    rw [committed, failed]
  · refine Or.inr ⟨?_, run⟩
    rw [committed, found]
  · rcases findFork_unforked unforked with none_ | ⟨reason, failed⟩
    · rw [found] at none_
      cases none_
    · rw [found] at failed
      cases failed

/-- A coin as a block pays it, whatever is known of its spend. -/
def BlockOutcome.Pays
    (block : BlockOutcome)
    (outpoint : OutPoint)
    (entry : SpCoinEntry) : Prop :=
  ∃ output, block.outs[outpoint]? = some output ∧
    entry = ⟨outpoint, { output with spendStatus := entry.status }⟩

def OutputsRecorded
    (blocks : List BlockOutcome)
    (coins : SpCoinStore) : Prop :=
  ∀ block ∈ blocks, ∀ outpoint ∈ block.outs,
    ∃ entry, coins.get outpoint = some entry ∧
      ∃ source ∈ blocks, source.Pays outpoint entry

variable {blocks : List BlockOutcome} (times : Nat → Option Nat)
variable {hashes : BTreeMap Nat BlockHash}

theorem get_coins_withFound
    (block : BlockOutcome)
    (stores : ScanStores)
    (query : OutPoint) :
    (stores.withFound times block).coins.get query =
      match block.outs[query]? with
      | some output =>
          some ⟨query, ScanStores.keepStatus (stores.coins.get query) output⟩
      | none => stores.coins.get query := by
  unfold ScanStores.withFound
  by_cases empty : block.outs.isEmpty = true
  · rw [if_pos empty]
    have none_ : block.outs[query]? = none := by
      rw [Std.ExtTreeMap.isEmpty_iff.mp empty]
      rfl
    rw [none_]
  · rw [if_neg empty]
    exact ScanStores.get_coins_recordOutputs ..

theorem OutputsRecorded.withFound
    (recorded : OutputsRecorded blocks stores.coins)
    (times : Nat → Option Nat)
    (block : BlockOutcome) :
    OutputsRecorded (blocks ++ [block])
      (stores.withFound times block).coins := by
  have looked := get_coins_withFound times block stores
  intro source member outpoint paid
  rw [looked]
  cases output : block.outs[outpoint]? with
  | some output' =>
      refine ⟨_, rfl, block, by simp, output', output, ?_⟩
      unfold ScanStores.keepStatus
      cases stores.coins.get outpoint with
      | none =>
          rfl
      | some entry =>
          dsimp only
          split <;> rfl
  | none =>
      rcases List.mem_append.mp member with earlier | last
      · obtain ⟨entry, found, payer, listed, pays⟩ :=
          recorded source earlier outpoint paid
        exact ⟨entry, found, payer, List.mem_append_left _ listed, pays⟩
      · rw [List.mem_singleton.mp last] at paid
        exact absurd output (fun absent =>
          BTreeMap.not_mem_iff_getElem?.mpr absent paid)

theorem OutputsRecorded.recordInputs
    (recorded : OutputsRecorded blocks stores.coins)
    (times : Nat → Option Nat)
    (blockHash : BlockHash)
    (height : Nat)
    (spent : BTreeSet OutPoint) :
    OutputsRecorded blocks
      (stores.recordInputs times blockHash height spent).coins := by
  intro block member outpoint paid
  obtain ⟨entry, found, payer, listed, output, pays, shape⟩ :=
    recorded block member outpoint paid
  rw [ScanStores.get_coins_recordInputs]
  split
  · refine ⟨entry.withStatus (entry.status.confirmed blockHash), ?_,
      payer, listed, output, pays, ?_⟩
    · rw [found]
      rfl
    · rw [shape]
      rfl
  · exact ⟨entry, found, payer, listed, output, pays, shape⟩

/-- A frontier recorded by a scan from `start`, at height `last`. -/
structure FrontierMoved
    (start stop : Nat)
    (before : ScanState)
    (committed : List BlockOutcome)
    (last : Nat)
    (state : ScanState) : Prop where
  reached : state.lastScannedHeight = some last
  above : before.unscanned ≤ last
  low : start ≤ last
  high : last ≤ stop
  blocks :
    ∀ height, start ≤ height → height ≤ last →
      ∃ block ∈ committed, block.height = height
  hashes :
    ∀ height, before.unscanned ≤ height → start ≤ height →
      last < height + reorgDepth → height ≤ last →
      ∃ block ∈ committed, block.height = height ∧
        state.scanned[height]? = some block.hash
  older :
    ∀ height,
      ¬ (before.unscanned ≤ height ∧ start ≤ height ∧
        last < height + reorgDepth ∧ height ≤ last) →
      state.scanned[height]? =
        if height + reorgDepth ≤ last then
          none
        else
          before.scanned[height]?

/-- The receive frontier as a scan from `start` leaves it. -/
def FrontierKept
    (start stop : Nat)
    (before : ScanState)
    (committed : List BlockOutcome)
    (state : ScanState) : Prop :=
  (state.lastScannedHeight = before.lastScannedHeight ∧
      state.scanned = before.scanned) ∨
    ∃ last, FrontierMoved start stop before committed last state

variable {before state : ScanState} {committed : List BlockOutcome}

theorem FrontierKept.append
    {start stop : Nat}
    (kept : FrontierKept start stop before committed state)
    (more : List BlockOutcome) :
    FrontierKept start stop before (committed ++ more) state := by
  rcases kept with same | ⟨last, moved⟩
  · exact Or.inl same
  · refine Or.inr ⟨last, { moved with blocks := ?_, hashes := ?_ }⟩
    · intro height low high
      obtain ⟨block, member, there⟩ := moved.blocks height low high
      exact ⟨block, List.mem_append_left _ member, there⟩
    · intro height fresh low inWindow high
      obtain ⟨block, member, there⟩ :=
        moved.hashes height fresh low inWindow high
      exact ⟨block, List.mem_append_left _ member, there⟩

theorem FrontierKept.congr
    {start stop : Nat}
    {before state other : ScanState}
    (kept : FrontierKept start stop before committed state)
    (sameLast : other.lastScannedHeight = state.lastScannedHeight)
    (sameHashes : other.scanned = state.scanned) :
    FrontierKept start stop before committed other := by
  rcases kept with ⟨last, hashes⟩ | ⟨last, moved⟩
  · exact Or.inl ⟨sameLast.trans last, sameHashes.trans hashes⟩
  · refine Or.inr ⟨last, { moved with reached := ?_, hashes := ?_, older := ?_ }⟩
    · rw [sameLast, moved.reached]
    · rw [sameHashes]
      exact moved.hashes
    · rw [sameHashes]
      exact moved.older

theorem FrontierKept.advanceTo
    {start stop : Nat}
    (kept : FrontierKept start stop before committed state)
    (taken :
      ∀ height hash, hashes[height]? = some hash →
        ∃ block ∈ committed, block.height = height ∧ block.hash = hash)
    {tip : Nat}
    (low : start ≤ tip)
    (high : tip ≤ stop)
    (filled : ∀ height, start ≤ height → height ≤ tip → height ∈ hashes) :
    FrontierKept start stop before committed
      (state.advanceTo hashes start tip) := by
  have advanced := ScanState.advanced_advanceTo state low filled
  have known :
      ∀ height, start ≤ height → height ≤ tip →
        ∃ block ∈ committed, block.height = height ∧
          hashes[height]? = some block.hash := by
    intro height from_ upto
    obtain ⟨hash, found⟩ :=
      BTreeMap.mem_iff_getElem?.mp (filled height from_ upto)
    obtain ⟨block, member, there, rfl⟩ := taken height hash found
    exact ⟨block, member, there, found⟩
  have nonempty : max start (tip + 1 - reorgDepth) < tip + 1 := by
    unfold reorgDepth
    omega
  by_cases above : state.unscanned ≤ tip
  · have reached :
        (state.advanceTo hashes start tip).lastScannedHeight = some tip := by
      rw [advanced.last, if_pos ⟨nonempty, by omega⟩]
      rfl
    have scanned := advanced.kept
    have since : before.unscanned ≤ state.unscanned := by
      rcases kept with ⟨same, _⟩ | ⟨last, moved⟩
      · unfold ScanState.unscanned
        rw [same]
      · rw [ScanState.unscanned_some moved.reached]
        have := moved.above
        omega
    refine Or.inr ⟨tip,
      { reached := reached
        above := by omega
        low := low
        high := high
        blocks := ?_
        hashes := ?_
        older := ?_ }⟩
    · intro height from_ upto
      obtain ⟨block, member, there, _⟩ := known height from_ upto
      exact ⟨block, member, there⟩
    · intro height fresh from_ inWindow upto
      rw [scanned]
      by_cases new : state.unscanned ≤ height
      · obtain ⟨block, member, there, found⟩ := known height from_ upto
        refine ⟨block, member, there, ?_⟩
        rw [if_pos ⟨new, by unfold reorgDepth at inWindow ⊢; omega, by omega⟩]
        exact found
      · rw [if_neg (by omega), if_neg (by omega)]
        rcases kept with ⟨same, _⟩ | ⟨last, moved⟩
        · exact absurd fresh (by
            unfold ScanState.unscanned at new ⊢
            rwa [← same])
        · have bound := ScanState.unscanned_some moved.reached
          exact moved.hashes height fresh from_ (by omega) (by omega)
    · intro height outside
      rw [scanned]
      rw [if_neg (by unfold reorgDepth at outside ⊢; omega)]
      by_cases dropped : height + reorgDepth ≤ tip
      · rw [if_pos ⟨nonempty, by omega, by omega⟩, if_pos dropped]
      · rw [if_neg (by omega), if_neg dropped]
        rcases kept with ⟨_, same⟩ | ⟨last, moved⟩
        · rw [same]
        · have bound := ScanState.unscanned_some moved.reached
          rw [moved.older height (by omega), if_neg (by omega)]
  · refine kept.congr ?_ ?_
    · rw [advanced.last, if_neg (by omega)]
    · apply Std.ExtTreeMap.ext_getElem?
      intro height
      rw [advanced.kept, if_neg (by omega), if_neg (by omega)]

/-- What holds while the blocks of a scan arrive. -/
structure Receiving
    (history : List BlockOutcome)
    (start stop : Nat)
    (before : ScanState)
    (committed : List BlockOutcome)
    (collector : Collector)
    (stores : ScanStores) : Prop where
  taken :
    ∀ height hash, collector.hashes[height]? = some hash →
      ∃ block ∈ committed, block.height = height ∧ block.hash = hash
  recorded : OutputsRecorded (history ++ committed) stores.coins
  frontier : FrontierKept start stop before committed stores.state

theorem receiveRules_receiving
    (history : List BlockOutcome)
    (start stop : Nat)
    (before : ScanState) :
    ReceiveRules times start stop (Receiving history start stop before) where
  commit committed collector stores block _ _ receiving := by
    constructor
    · intro height hash found
      simp only [Collector.commit, BTreeMap.getElem?_insert_eq] at found
      split at found
      · next same =>
          cases found
          exact ⟨block, by simp, same, rfl⟩
      · obtain ⟨source, member, there⟩ := receiving.taken height hash found
        exact ⟨source, List.mem_append_left _ member, there⟩
    · rw [← List.append_assoc]
      exact receiving.recorded.withFound times block
    · have same : (stores.withFound times block).state = stores.state := by
        unfold ScanStores.withFound
        split <;> rfl
      rw [same]
      exact receiving.frontier.append [block]
  frontier committed collector stores tip _ low high filled receiving :=
    { taken := receiving.taken
      recorded := receiving.recorded
      frontier :=
        (receiving.frontier.advanceTo receiving.taken low high filled).congr
          (ScanState.lastScannedHeight_persist _)
          (ScanState.scanned_persist _) }
  save committed collector stores receiving :=
    { taken := receiving.taken
      recorded := by
        intro block member outpoint paid
        obtain ⟨entry, found, rest⟩ :=
          receiving.recorded block member outpoint paid
        exact ⟨entry, by simpa [ScanStores.saveState] using found, rest⟩
      frontier :=
        receiving.frontier.congr (ScanState.lastScannedHeight_persist _)
          (ScanState.scanned_persist _) }

theorem Collector.Sound.not_of_nil
    {start stop tip : Nat} :
    ¬ (⟨hashes, some tip⟩ : Collector).Sound [] start stop := by
  intro sound
  obtain ⟨low, _, filled⟩ := sound.tip tip rfl
  obtain ⟨hash, found⟩ :=
    BTreeMap.mem_iff_getElem?.mp (filled start (Nat.le_refl _) low)
  obtain ⟨_, impossible, _⟩ := sound.delivered start hash found
  cases impossible

/-- What is recorded, and how far the frontier is. -/
structure Committed
    (history : List BlockOutcome)
    (start stop : Nat)
    (before : ScanState)
    (committed : List BlockOutcome)
    (stores : ScanStores) : Prop where
  recorded : OutputsRecorded (history ++ committed) stores.coins
  frontier : FrontierKept start stop before committed stores.state

namespace Committed

variable
    {history : List BlockOutcome}
    {start stop : Nat}
    {before : ScanState}
    {committed : List BlockOutcome}
    {stores : ScanStores}

theorem saveState
    (holds : Committed history start stop before committed stores) :
    Committed history start stop before committed stores.saveState where
  recorded := by
    intro block member outpoint paid
    obtain ⟨entry, found, rest⟩ := holds.recorded block member outpoint paid
    exact ⟨entry, by simpa [ScanStores.saveState] using found, rest⟩
  frontier :=
    holds.frontier.congr (ScanState.lastScannedHeight_persist _)
      (ScanState.scanned_persist _)

theorem recordSpendFrontier
    (holds : Committed history start stop before committed stores)
    (height : Nat) :
    Committed history start stop before committed
      (stores.recordSpendFrontier height) where
  recorded := holds.recorded
  frontier := by
    refine holds.frontier.congr ?_ ?_
    · rw [ScanStores.recordSpendFrontier, ScanState.lastScannedHeight_persist]
      unfold ScanState.advanceSpendFrontier
      split <;> rfl
    · rw [ScanStores.recordSpendFrontier, ScanState.scanned_persist]
      unfold ScanState.advanceSpendFrontier
      split <;> rfl

theorem sweepRules
    (script : ScanScript)
    (from_ upto : Nat) :
    ScanRules { script with arrivals := [] } from_ upto 0
      (Committed history start stop before committed) where
  resumes _ _ := Nat.zero_le _
  outputs _ _ _ impossible := by cases impossible
  frontier _ _ sound := sound.not_of_nil.elim
  inputs stores _ _ _ _ _ _ _ _ _ holds :=
    { recorded := holds.recorded.recordInputs _ _ _ _
      frontier :=
        holds.frontier.congr (by simp) (by simp) }
  spendFrontier _ height holds := holds.recordSpendFrontier height
  save _ holds := holds.saveState

end Committed

theorem startSpendFrontier_never_fails
    {inv : ScanStores → Prop}
    (spendFrontier :
      ∀ stores height, inv stores → inv (stores.recordSpendFrontier height))
    (save : ∀ stores, inv stores → inv stores.saveState)
    (start : Nat) :
    Holds inv (startSpendFrontier start) (fun _ => inv) (fun _ _ => False) :=
  Holds.bindGet (fun _ _ => Holds.ite
    (fun _ => Holds.bind
      (Holds.modify (fun stores holds => spendFrontier stores _ holds))
      (fun _ => Holds.modify (fun stores holds => save stores holds)))
    (fun _ => Holds.pure (fun _ holds => holds)))

variable {history : List BlockOutcome}

/-- However the passes end, the frontier is recorded over what they commit. -/
theorem ScanInput.committed_unforkedScan
    (input : ScanInput)
    (recorded : OutputsRecorded history stores.coins) :
    Committed history input.start input.stop stores.state input.delivered
      (finalState (input.unforkedScan stores)) := by
  have begun :
      Committed history input.start input.stop stores.state [] stores := by
    refine ⟨?_, Or.inl ⟨rfl, rfl⟩⟩
    rwa [List.append_nil]
  refine Holds.finalState ?_ _ begun
  refine Holds.move
    (startSpendFrontier_never_fails
      (fun _ height holds => holds.recordSpendFrontier height)
      (fun _ holds => holds.saveState) input.start)
    (fun _ _ impossible => impossible.elim) (fun _ => ?_)
  refine Holds.bindGet (fun read _ => ?_)
  have sweeps :
      ∀ blocks,
        Keeps
          (Committed history input.start input.stop stores.state blocks)
          (processSpends input.script input.start input.stop) :=
    fun blocks =>
      (Committed.sweepRules input.script input.start
        input.stop).processSpends_keeps
  unfold ScanInput.delivered
  refine Holds.ite (fun invalid => ?_) (fun _ => ?_)
  · rw [if_neg (by omega)]
    exact Holds.throw (fun _ holds => holds)
  · refine Holds.ite (fun range => ?_) (fun empty => ?_)
    · rw [if_pos range]
      have received :=
        (receiveRules_receiving input.script.times history input.start
          input.stop stores.state).processBlocks
      refine Holds.through
        (fun _ =>
          Committed history input.start input.stop stores.state
            (committedBlocks input.start input.stop input.script.arrivals))
        (Holds.conseq received ?_ ?_ ?_) ?_
      · exact fun _ holds =>
          { taken := fun height hash found => by simp at found
            recorded := holds.recorded
            frontier := holds.frontier }
      · rintro _ _ ⟨collector, holds, _⟩
        exact ⟨holds.recorded, holds.frontier⟩
      · rintro _ _ ⟨collector, holds, _⟩
        exact ⟨holds.recorded, holds.frontier⟩
      · intro outcome
        cases outcome with
        | completed =>
            exact sweeps _
        | interrupted lastScanned lastSpend =>
            exact Keeps.pure
    · rw [if_neg empty]
      exact sweeps []

theorem ScanInput.frontier_unforkedScan
    (input : ScanInput)
    (stores : ScanStores) :
    FrontierKept input.start input.stop stores.state input.delivered
      (finalState (input.unforkedScan stores)).state := by
  have nothing : OutputsRecorded [] stores.coins := by
    intro _ impossible
    cases impossible
  exact (input.committed_unforkedScan nothing).frontier

/-- However a scan ends, its frontier is recorded over what it committed. -/
theorem ScanInput.Unforked.committed_after
    {input : ScanInput}
    (unforked : input.Unforked stores)
    (recorded : OutputsRecorded history stores.coins) :
    Committed history input.start input.stop stores.state
      (input.committed stores) (input.after stores) := by
  rcases unforked.processScan with ⟨nothing, same⟩ | ⟨blocks, run⟩
  · rw [nothing, same]
    refine ⟨?_, Or.inl ⟨rfl, rfl⟩⟩
    rwa [List.append_nil]
  · rw [blocks, run]
    have begun :
        OutputsRecorded history (input.restamped stores).coins :=
      recorded
    exact input.committed_unforkedScan begun

/-- Every height from the first scanned one to the frontier is scanned, and
the kept hashes are those of the last scanned blocks. -/
structure Unbroken
    (first : Option Nat)
    (history : List BlockOutcome)
    (state : ScanState) : Prop where
  unstarted : state.lastScannedHeight = none → first = none
  empty : state.lastScannedHeight = none → state.scanned = ∅
  started :
    ∀ last, state.lastScannedHeight = some last →
      ∃ low, first = some low ∧ low ≤ last ∧
        (∀ height, low ≤ height → height ≤ last →
          ∃ block ∈ history, block.height = height) ∧
        ∀ height,
          height ∈ state.scanned ↔
            low ≤ height ∧ last < height + reorgDepth ∧ height ≤ last
  kept :
    ∀ height hash, state.scanned[height]? = some hash →
      ∃ block ∈ history, block.height = height ∧ block.hash = hash

/-- The scan begins at or below the first height not scanned yet. -/
def ScanInput.Continues (input : ScanInput) (stores : ScanStores) : Prop :=
  ∀ last, stores.state.lastScannedHeight = some last → input.start ≤ last + 1

variable {start stop last : Nat}

theorem FrontierMoved.window_first
    (moved : FrontierMoved start stop before committed last state)
    (unstarted : before.lastScannedHeight = none)
    (empty : before.scanned = ∅)
    (height : Nat) :
    height ∈ state.scanned ↔
      start ≤ height ∧ last < height + reorgDepth ∧ height ≤ last := by
  have bound := ScanState.unscanned_none unstarted
  by_cases inside :
      start ≤ height ∧ last < height + reorgDepth ∧ height ≤ last
  · obtain ⟨block, _, _, found⟩ :=
      moved.hashes height (by omega) inside.1 inside.2.1 inside.2.2
    exact ⟨fun _ => inside,
      fun _ => BTreeMap.mem_iff_getElem?.mpr ⟨block.hash, found⟩⟩
  · have absent := moved.older height (fun all => inside all.2)
    rw [empty, Std.ExtTreeMap.getElem?_empty, ite_self] at absent
    exact ⟨fun present =>
        absurd present (BTreeMap.not_mem_iff_getElem?.mpr absent),
      fun all => absurd all inside⟩

theorem FrontierMoved.window_continued
    (moved : FrontierMoved start stop before committed last state)
    {reached low : Nat}
    (known : before.lastScannedHeight = some reached)
    (next : start ≤ reached + 1)
    (below : low ≤ reached)
    (window :
      ∀ height,
        height ∈ before.scanned ↔
          low ≤ height ∧ reached < height + reorgDepth ∧ height ≤ reached)
    (height : Nat) :
    height ∈ state.scanned ↔
      low ≤ height ∧ last < height + reorgDepth ∧ height ≤ last := by
  have bound := ScanState.unscanned_some known
  have above := moved.above
  by_cases fresh :
      before.unscanned ≤ height ∧ start ≤ height ∧
        last < height + reorgDepth ∧ height ≤ last
  · obtain ⟨block, _, _, found⟩ :=
      moved.hashes height fresh.1 fresh.2.1 fresh.2.2.1 fresh.2.2.2
    exact ⟨fun _ => ⟨by omega, fresh.2.2⟩,
      fun _ => BTreeMap.mem_iff_getElem?.mpr ⟨block.hash, found⟩⟩
  · have found := moved.older height fresh
    by_cases dropped : height + reorgDepth ≤ last
    · rw [if_pos dropped] at found
      exact ⟨fun present =>
          absurd present (BTreeMap.not_mem_iff_getElem?.mpr found),
        fun all => by omega⟩
    · rw [if_neg dropped] at found
      have same : height ∈ state.scanned ↔ height ∈ before.scanned := by
        rw [BTreeMap.mem_iff_getElem?, BTreeMap.mem_iff_getElem?, found]
      rw [same, window]
      omega

variable {first : Option Nat}

theorem Unbroken.unmoved
    (unbroken : Unbroken first history before)
    (sameLast : state.lastScannedHeight = before.lastScannedHeight)
    (sameHashes : state.scanned = before.scanned)
    (more : List BlockOutcome) :
    Unbroken first (history ++ more) state := by
  constructor
  · rw [sameLast]
    exact unbroken.unstarted
  · rw [sameLast, sameHashes]
    exact unbroken.empty
  · rw [sameLast, sameHashes]
    intro last known
    obtain ⟨low, began, below, filled, window⟩ := unbroken.started last known
    refine ⟨low, began, below, ?_, window⟩
    intro height from_ upto
    obtain ⟨block, member, there⟩ := filled height from_ upto
    exact ⟨block, List.mem_append_left _ member, there⟩
  · rw [sameHashes]
    intro height hash found
    obtain ⟨block, member, there⟩ := unbroken.kept height hash found
    exact ⟨block, List.mem_append_left _ member, there⟩

theorem Unbroken.moved
    {history committed : List BlockOutcome}
    (unbroken : Unbroken first history before)
    (continues :
      ∀ reached, before.lastScannedHeight = some reached →
        start ≤ reached + 1)
    (moved : FrontierMoved start stop before committed last state) :
    Unbroken (some (first.getD start)) (history ++ committed) state := by
  have later :
      ∀ height, start ≤ height → height ≤ last →
        ∃ block ∈ history ++ committed, block.height = height := by
    intro height from_ upto
    obtain ⟨block, member, there⟩ := moved.blocks height from_ upto
    exact ⟨block, List.mem_append_right _ member, there⟩
  constructor
  · rw [moved.reached]
    intro impossible
    cases impossible
  · rw [moved.reached]
    intro impossible
    cases impossible
  · intro last' reached
    rw [moved.reached] at reached
    cases reached
    cases known : before.lastScannedHeight with
    | none =>
        rw [unbroken.unstarted known]
        exact ⟨start, rfl, moved.low, later,
          moved.window_first known (unbroken.empty known)⟩
    | some reached =>
        obtain ⟨low, began, below, filled, window⟩ :=
          unbroken.started reached known
        have above := moved.above
        rw [ScanState.unscanned_some known] at above
        rw [began]
        refine ⟨low, rfl, by omega, ?_,
          moved.window_continued known (continues reached known) below window⟩
        intro height from_ upto
        by_cases old : height ≤ reached
        · obtain ⟨block, member, there⟩ := filled height from_ old
          exact ⟨block, List.mem_append_left _ member, there⟩
        · have next := continues reached known
          exact later height (by omega) upto
  · intro height hash found
    by_cases fresh :
        before.unscanned ≤ height ∧ start ≤ height ∧
          last < height + reorgDepth ∧ height ≤ last
    · obtain ⟨block, member, there, known⟩ :=
        moved.hashes height fresh.1 fresh.2.1 fresh.2.2.1 fresh.2.2.2
      rw [known] at found
      cases found
      exact ⟨block, List.mem_append_right _ member, there, rfl⟩
    · rw [moved.older height fresh] at found
      split at found
      · cases found
      · obtain ⟨block, member, there⟩ := unbroken.kept height hash found
        exact ⟨block, List.mem_append_left _ member, there⟩

theorem Unbroken.scan
    (unbroken : Unbroken first history stores.state)
    {input : ScanInput}
    (continues : input.Continues stores)
    (kept :
      FrontierKept input.start input.stop stores.state
        (input.committed stores) (input.after stores).state) :
    Unbroken (input.firstScanned stores first)
      (history ++ input.committed stores) (input.after stores).state := by
  rcases kept with ⟨sameLast, sameHashes⟩ | ⟨last, moved⟩
  · have sameFirst : input.firstScanned stores first = first := by
      cases first with
      | some low =>
          rfl
      | none =>
          cases known : stores.state.lastScannedHeight with
          | none =>
              rw [ScanInput.firstScanned, sameLast, known]
              rfl
          | some last =>
              obtain ⟨low, impossible, _⟩ := unbroken.started last known
              cases impossible
    rw [sameFirst]
    exact unbroken.unmoved sameLast sameHashes _
  · have nextFirst :
        input.firstScanned stores first = some (first.getD input.start) := by
      cases first with
      | some low =>
          rfl
      | none =>
          rw [ScanInput.firstScanned, moved.reached]
          rfl
    rw [nextFirst]
    exact unbroken.moved continues moved

theorem ScanRun.recorded
    {admits : ScanStores → ScanInput → Prop}
    (run : ScanRun admits first history stores) :
    OutputsRecorded history stores.coins := by
  induction run with
  | fresh stores =>
      intro block impossible
      cases impossible
  | scan input _ unforked _ inductionHypothesis =>
      exact (unforked.committed_after inductionHypothesis).recorded

/--
Every frontier a scan records is over blocks it committed with their outputs;
and where every scan of a run starts at or below the first height not scanned
yet, every height up to the frontier is scanned.
-/
theorem scans_leave_no_hole
    (first : Option Nat)
    (history : List BlockOutcome)
    (stores : ScanStores) :
    (ScanRun (fun _ _ => True) first history stores →
      ∀ input : ScanInput, input.Unforked stores →
        Committed history input.start input.stop stores.state
          (input.committed stores) (input.after stores)) ∧
      (ScanRun (fun stores input => input.Continues stores) first history
          stores →
        OutputsRecorded history stores.coins ∧
          Unbroken first history stores.state) := by
  constructor
  · intro run input unforked
    exact unforked.committed_after run.recorded
  · intro run
    refine ⟨run.recorded, ?_⟩
    induction run with
    | fresh stores unstarted _ empty _ =>
        refine ⟨fun _ => rfl, fun _ => empty, ?_, ?_⟩
        · intro last reached
          rw [unstarted] at reached
          cases reached
        · intro height hash found
          rw [empty] at found
          simp at found
    | scan input earlier unforked continues inductionHypothesis =>
        exact inductionHypothesis.scan continues
          (unforked.committed_after earlier.recorded).frontier

namespace ScanRun

def sampleWallet : ScanStores where
  coins := SpCoinStore.withBackend ⟨∅, []⟩
  txs := SpTxStore.withBackend ⟨∅, []⟩
  state := ScanState.withBackend 10 ⟨∅, []⟩ ⟨none, none, none, []⟩

def sampleHash (height : Nat) : BlockHash :=
  height + 1000

def unanswered : SweepScript where
  next _ _ _ := .error .fetch
  watched := by
    intro _ _ _ _ _ impossible
    cases impossible
  checkpoint _ := false
  stop _ := false

/-- A scan of one block that pays nothing. -/
def sampleScan (height : Nat) : ScanInput where
  script :=
    { times := fun _ => none
      chainHash := fun _ height => .ok (sampleHash height)
      arrivals := [⟨.ok ⟨height, sampleHash height, ∅⟩, false, false⟩]
      stopAtEnd := false
      sweep := unanswered }
  start := height
  stop := height

theorem sampleWallet_run
    (admits : ScanStores → ScanInput → Prop) :
    ScanRun admits none [] sampleWallet :=
  .fresh _ rfl rfl rfl (fun _ => Std.ExtTreeMap.getElem?_empty)

theorem scanned_sampleScan :
    ((sampleScan 10).after sampleWallet).state.scanned.toList =
      [(10, sampleHash 10)] := by
  decide +kernel

theorem sampleScan_unforked_again (height : Nat) :
    (sampleScan height).Unforked ((sampleScan 10).after sampleWallet) := by
  intro kept hash found depth answer answered
  cases answered
  have member := Std.ExtTreeMap.mem_toList_iff_getElem?_eq_some.mpr found
  rw [scanned_sampleScan, List.mem_singleton] at member
  cases member
  rfl

theorem sampleScan_unforked (height : Nat) :
    (sampleScan height).Unforked sampleWallet := by
  intro kept hash found
  simp [sampleWallet, ScanState.scanned, ScanState.withBackend,
    RamStore.empty] at found

/-- An override above the frontier leaves a hole. -/
theorem override_leaves_hole :
    ¬ ∀ first history stores,
        ScanRun (fun _ _ => True) first history stores →
        Unbroken first history stores.state := by
  intro always
  have run :=
    ScanRun.scan (sampleScan 12)
      (ScanRun.scan (sampleScan 10)
        (sampleWallet_run fun _ _ => True) (sampleScan_unforked 10) True.intro)
      (sampleScan_unforked_again 12) True.intro
  obtain ⟨low, began, _, filled, _⟩ :=
    (always _ _ _ run).started 12 (by decide +kernel)
  have from_ : low = 10 := by
    have known :
        (sampleScan 12).firstScanned ((sampleScan 10).after sampleWallet)
          ((sampleScan 10).firstScanned sampleWallet none) = some 10 := by
      decide +kernel
    rw [known] at began
    cases began
    rfl
  obtain ⟨block, member, there⟩ := filled 11 (by omega) (by omega)
  have heights :
      ([] ++ (sampleScan 10).committed sampleWallet ++
          (sampleScan 12).committed
            ((sampleScan 10).after sampleWallet)).map BlockOutcome.height =
        [10, 12] := by
    decide +kernel
  have listed := List.mem_map_of_mem (f := BlockOutcome.height) member
  rw [heights, there] at listed
  simp at listed

/-- Two blocks in a row leave no hole. -/
theorem scans_leave_no_hole_in_a_row :
    Unbroken
      ((sampleScan 11).firstScanned ((sampleScan 10).after sampleWallet)
        ((sampleScan 10).firstScanned sampleWallet none))
      ([] ++ (sampleScan 10).committed sampleWallet ++
        (sampleScan 11).committed ((sampleScan 10).after sampleWallet))
      ((sampleScan 11).after ((sampleScan 10).after sampleWallet)).state := by
  refine ((scans_leave_no_hole _ _ _).2 ?_).2
  refine ScanRun.scan (sampleScan 11)
    (ScanRun.scan (sampleScan 10) (sampleWallet_run _)
      (sampleScan_unforked 10) ?_)
    (sampleScan_unforked_again 11) ?_
  · intro last reached
    cases reached
  · intro last reached
    have known :
        ((sampleScan 10).after sampleWallet).state.lastScannedHeight =
          some 10 := by
      decide +kernel
    rw [known] at reached
    cases reached
    decide

end ScanRun
end Bwk
