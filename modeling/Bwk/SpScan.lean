import Bwk.SpStores
import Bwk.Triples

namespace Bwk

/-!
# The silent-payment scan

`sp/src/scan/mod.rs`: what a scan records of the blocks it fetches, how it
detects a reorg and rolls the stores back, and how its two passes are driven.
Fetching, matching and block times come from outside: a `ScanScript` holds
every answer a scan gets, in the order in which it asks.
-/

/-- Why a scan failed. -/
inductive ScanError where
  | fetch
  | reorgTooDeep (depth : Nat)
  | missingBlockHash (height : Nat)
  | invalidRange (start stop : Nat)
  /-- An index past the end of the scanned range. -/
  | outOfRange
  deriving Repr, DecidableEq

/-- How a scan run ended. -/
inductive SpScanOutcome where
  | completed
  | interrupted (lastScanned lastSpend : Option Nat)
  deriving Repr, DecidableEq

structure ScanStores where
  coins : SpCoinStore
  txs : SpTxStore
  state : ScanState

namespace ScanStores

/-- Write every store back. -/
def saveState (stores : ScanStores) : ScanStores where
  coins := stores.coins.persist
  txs := stores.txs.persist
  state := stores.state.persist

/-- An output found again keeps what is known of its spend. -/
def keepStatus
    (existing : Option SpCoinEntry)
    (output : OwnedOutput) : OwnedOutput :=
  match existing with
  | none => output
  | some entry =>
      if entry.status ≠ .unspent then
        { output with spendStatus := entry.status }
      else
        output

def recordOutput
    (coins : SpCoinStore)
    (found : OutPoint × OwnedOutput) : SpCoinStore :=
  coins.insert found.1 (keepStatus (coins.get found.1) found.2)

def fundingHeight
    (byTx : BTreeMap Txid Nat)
    (found : OutPoint × OwnedOutput) : BTreeMap Txid Nat :=
  match found.2.blockheight with
  | some height => byTx.insertIfNew found.1.txid height
  | none => byTx

/-- Stamp a transaction with the time of its block, when that is known. -/
def stamp
    (times : Nat → Option Nat)
    (height : Nat)
    (txid : Txid)
    (txs : SpTxStore) : SpTxStore :=
  match times height with
  | some timestamp => txs.updateTimestamp txid timestamp
  | none => txs

def recordFunding
    (times : Nat → Option Nat)
    (txs : SpTxStore)
    (funding : Txid × Nat) : SpTxStore :=
  let confirmed :=
    match txs.get funding.1 with
    | some _ => txs.updateHeight funding.1 (some funding.2)
    | none =>
        txs.insert { SpTxEntry.new funding.1 with height := some funding.2 }
  stamp times funding.2 funding.1 confirmed

def recordOutputs
    (times : Nat → Option Nat)
    (outputs : BTreeMap OutPoint OwnedOutput)
    (stores : ScanStores) : ScanStores :=
  let byTx := outputs.toList.foldl fundingHeight ∅
  { stores with
    coins := (outputs.toList.foldl recordOutput stores.coins).persist
    txs := (byTx.toList.foldl (recordFunding times) stores.txs).persist }

/-- Confirm one spend, collecting the transaction it confirms. -/
def recordInput
    (blockHash : BlockHash)
    (progress : SpCoinStore × List Txid)
    (outpoint : OutPoint) : SpCoinStore × List Txid :=
  let confirmedTxids :=
    match (progress.1.get outpoint).map SpCoinEntry.status with
    | some (.spent txid _) => progress.2 ++ [txid]
    | _ => progress.2
  (progress.1.confirmSpend outpoint blockHash, confirmedTxids)

/-- Confirm one of our own transactions. -/
def confirmTx
    (times : Nat → Option Nat)
    (height : Nat)
    (txs : SpTxStore)
    (txid : Txid) : SpTxStore :=
  stamp times height txid (txs.updateHeight txid (some height))

/-- Record the coins found spent in a block. -/
def recordInputs
    (times : Nat → Option Nat)
    (blockHash : BlockHash)
    (height : Nat)
    (inputs : BTreeSet OutPoint)
    (stores : ScanStores) : ScanStores :=
  let (coins, confirmedTxids) :=
    inputs.toList.foldl (recordInput blockHash) (stores.coins, [])
  let stores := { stores with coins := coins.persist }
  if confirmedTxids.isEmpty then
    stores
  else
    { stores with
      txs :=
        (confirmedTxids.foldl (confirmTx times height) stores.txs).persist }

def recordSpendFrontier (height : Nat) (stores : ScanStores) : ScanStores :=
  { stores with
    state := (stores.state.advanceSpendFrontier height).persist }

/-- Where the spend sweep of a scan beginning at `start` starts. -/
def effectiveSpendStart (stores : ScanStores) (start : Nat) : Nat :=
  match stores.state.lastSpendHeight with
  | some frontier => if start ≤ frontier then start else frontier + 1
  | none => start

/-- Undo what the blocks above `forkHeight` recorded. -/
def rollBack
    (forkHeight : Nat)
    (reorged : List BlockHash)
    (stores : ScanStores) : ScanStores :=
  let coins := (stores.coins.rollBack forkHeight reorged).persist
  { coins := coins
    txs := (stores.txs.rollBack forkHeight coins.spendingTxids).persist
    state := (stores.state.rollBack forkHeight).persist }

def interrupted (stores : ScanStores) : SpScanOutcome :=
  .interrupted stores.state.lastScannedHeight stores.state.lastSpendHeight

end ScanStores

/-- The walk down the kept hashes; the first of them is the frontier's own. -/
def searchFork
    (chainHash : Nat → Nat → Except ScanError BlockHash) :
    Nat → List (Nat × BlockHash) → Except ScanError (Option Nat)
  | _, [] => .error (.reorgTooDeep (reorgDepth - 1))
  | depth, (height, hash) :: below =>
      match chainHash depth height with
      | .error reason => .error reason
      | .ok chain =>
          if chain = hash then
            .ok (if depth > 0 then some height else none)
          else
            searchFork chainHash (depth + 1) below

def findFork
    (chainHash : Nat → Nat → Except ScanError BlockHash)
    (scanned : BTreeMap Nat BlockHash) : Except ScanError (Option Nat) :=
  if scanned.isEmpty then
    .ok none
  else
    searchFork chainHash 0 scanned.toList.reverse

def reorgedHashes
    (scanned : BTreeMap Nat BlockHash)
    (forkHeight : Nat) : List BlockHash :=
  (scanned.toList.filter (fun kept => kept.1 > forkHeight)).map Prod.snd

structure BlockOutcome where
  height : Nat
  hash : BlockHash
  outs : BTreeMap OutPoint OwnedOutput

/-- One message of the block workers, and what the clock and the user say
once it is committed. -/
structure Arrival where
  outcome : Except ScanError BlockOutcome
  checkpoint : Bool
  stop : Bool

/-- The answers of the spend scanner, by request and by height. -/
structure SweepScript where
  next :
    Nat → Nat → BTreeSet OutPoint →
      Except ScanError (BlockHash × BTreeSet OutPoint)
  /-- Only watched outpoints are looked for. -/
  watched :
    ∀ {request cursor watch blockHash spent},
      next request cursor watch = .ok (blockHash, spent) →
        ∀ outpoint ∈ spent, outpoint ∈ watch
  checkpoint : Nat → Bool
  stop : Nat → Bool

/-- Everything a scan learns from outside. -/
structure ScanScript where
  /-- The block times the header store knows. -/
  times : Nat → Option Nat
  /-- The chain's hashes, by request of the fork search and by height. -/
  chainHash : Nat → Nat → Except ScanError BlockHash
  arrivals : List Arrival
  /-- The stop flag once the block workers are done. -/
  stopAtEnd : Bool
  sweep : SweepScript

/-- A scan's computations: the stores survive a failure. -/
abbrev ScanM := EStateM ScanError ScanStores

/-- Roll the stores back to the fork, if there is one; returns the start. -/
def handleReorg (script : ScanScript) (start : Nat) : ScanM Nat := do
  let stores ← get
  let scanned := stores.state.scanned
  match findFork script.chainHash scanned with
  | .error reason => throw reason
  | .ok none => pure start
  | .ok (some forkHeight) => do
      modify (ScanStores.rollBack forkHeight
        (reorgedHashes scanned forkHeight))
      pure (min start (forkHeight + 1))

def advanceFrontiers (hashes : BTreeMap Nat BlockHash) :
    List Nat → ScanM Unit
  | [] => pure ()
  | height :: above =>
      match hashes[height]? with
      | none => throw (.missingBlockHash height)
      | some hash => do
          modify (fun stores =>
            { stores with state := stores.state.advanceFrontier height hash })
          advanceFrontiers hashes above

/-- Advance the receive frontier to `tip`. -/
def recordScanFrontier
    (start tip : Nat)
    (hashes : BTreeMap Nat BlockHash) : ScanM Unit := do
  let lowest := max start (tip + 1 - reorgDepth)
  advanceFrontiers hashes (List.range' lowest (tip + 1 - lowest))
  modify (fun stores => { stores with state := stores.state.persist })

/-- What the collector has committed so far. -/
structure Collector where
  hashes : BTreeMap Nat BlockHash
  recvTip : Option Nat

/-- Move the contiguous tip over the committed blocks. -/
def advanceTip (hashes : BTreeMap Nat BlockHash) (stop : Nat) :
    Nat → Nat → Option Nat → Option Nat
  | 0, _, tip => tip
  | fuel + 1, next, tip =>
      if next ≤ stop ∧ next ∈ hashes then
        advanceTip hashes stop fuel (next + 1) (some next)
      else
        tip

/-- Where the contiguous tip would go next. -/
def Collector.next (collector : Collector) (start : Nat) : Nat :=
  match collector.recvTip with
  | some tip => tip + 1
  | none => start

/-- Record the frontier at the contiguous tip, if there is one. -/
def recordTip (start : Nat) (collector : Collector) : ScanM Unit :=
  match collector.recvTip with
  | some tip => recordScanFrontier start tip collector.hashes
  | none => pure ()

def recordFound
    (times : Nat → Option Nat)
    (outs : BTreeMap OutPoint OwnedOutput) : ScanM Unit :=
  if outs.isEmpty then
    pure ()
  else
    modify (ScanStores.recordOutputs times outs)

/-- Record the frontier and write every store back, when that is due. -/
def checkpointReceive
    (start : Nat)
    (collector : Collector)
    (due : Bool) : ScanM Unit :=
  match due, collector.recvTip with
  | true, some tip => do
      recordScanFrontier start tip collector.hashes
      modify ScanStores.saveState
  | _, _ => pure ()

def Collector.commit
    (collector : Collector)
    (start stop : Nat)
    (block : BlockOutcome) : Collector :=
  let hashes := collector.hashes.insert block.height block.hash
  let next := collector.next start
  ⟨hashes, advanceTip hashes stop (stop + 1 - next) next collector.recvTip⟩

def commitBlock
    (times : Nat → Option Nat)
    (start stop : Nat)
    (collector : Collector)
    (block : BlockOutcome)
    (checkpoint : Bool) : ScanM Collector :=
  if block.height < start ∨ stop < block.height then
    throw .outOfRange
  else do
    recordFound times block.outs
    let committed := collector.commit start stop block
    checkpointReceive start committed checkpoint
    pure committed

/-- Persist up to where the scan stopped. -/
def interruptAt (start : Nat) (collector : Collector) : ScanM SpScanOutcome := do
  recordTip start collector
  modify ScanStores.saveState
  let stores ← get
  pure stores.interrupted

/-- Commit the blocks as they arrive; `some` outcome when interrupted. -/
def collectBlocks
    (times : Nat → Option Nat)
    (start stop : Nat) :
    Collector → List Arrival → ScanM (Collector × Option SpScanOutcome)
  | collector, [] => pure (collector, none)
  | collector, arrival :: later =>
      match arrival.outcome with
      | .error reason => throw reason
      | .ok block => do
          let collector ←
            commitBlock times start stop collector block arrival.checkpoint
          if arrival.stop then do
            let outcome ← interruptAt start collector
            pure (collector, some outcome)
          else
            collectBlocks times start stop collector later

/-- The receive pass. -/
def processBlocks
    (script : ScanScript)
    (start stop : Nat) : ScanM SpScanOutcome := do
  let (collector, outcome) ←
    collectBlocks script.times start stop ⟨∅, none⟩ script.arrivals
  match outcome with
  | some outcome => pure outcome
  | none =>
      if collector.recvTip ≠ some stop then
        if script.stopAtEnd then
          interruptAt start collector
        else
          throw (.missingBlockHash stop)
      else do
        recordScanFrontier start stop collector.hashes
        modify ScanStores.saveState
        pure .completed

/-- Outpoints whose spend can still be detected, with their heights. -/
def SpCoinStore.watchable
    (coins : SpCoinStore)
    (sweepStart : Nat) : List (OutPoint × Nat) :=
  coins.coins.filterMap (fun coin =>
    match coin.2.status with
    | .unspent | .spent _ none =>
        some (coin.1, coin.2.height.getD sweepStart)
    | _ => none)

/-- The coins a sweep still watches. -/
structure WatchableSet where
  outpoints : BTreeSet OutPoint
  heightOf : BTreeMap OutPoint Nat
  /-- How many watched coins there are at each height. -/
  byHeight : BTreeMap Nat Nat

namespace WatchableSet

def add (watch : WatchableSet) (coin : OutPoint × Nat) : WatchableSet :=
  if coin.1 ∈ watch.outpoints then
    watch
  else
    { outpoints := watch.outpoints.insert coin.1
      heightOf := watch.heightOf.insert coin.1 coin.2
      byHeight :=
        watch.byHeight.insert coin.2 (watch.byHeight.getD coin.2 0 + 1) }

def new (coins : List (OutPoint × Nat)) : WatchableSet :=
  coins.foldl add ⟨∅, ∅, ∅⟩

/-- The lowest watched height. -/
def floor (watch : WatchableSet) : Option Nat :=
  watch.byHeight.firstKey?

/-- Drop a coin found spent. -/
def remove (watch : WatchableSet) (outpoint : OutPoint) : WatchableSet :=
  if outpoint ∈ watch.outpoints then
    { outpoints := watch.outpoints.erase outpoint
      heightOf := watch.heightOf.erase outpoint
      byHeight :=
        match watch.heightOf[outpoint]? with
        | none => watch.byHeight
        | some height =>
            match watch.byHeight[height]? with
            | none => watch.byHeight
            | some count =>
                if count - 1 = 0 then
                  watch.byHeight.erase height
                else
                  watch.byHeight.insert height (count - 1) }
  else
    watch

end WatchableSet

/-- Move the spend frontier and write every store back. -/
def checkpointSpend (height : Nat) : ScanM Unit := do
  modify (ScanStores.recordSpendFrontier height)
  modify ScanStores.saveState

def checkpointSpendIf (due : Bool) (height : Nat) : ScanM Unit :=
  if due then
    checkpointSpend height
  else
    pure ()

def recordSpent
    (times : Nat → Option Nat)
    (blockHash : BlockHash)
    (height : Nat)
    (spent : BTreeSet OutPoint) : ScanM Unit :=
  if spent.isEmpty then
    pure ()
  else
    modify (ScanStores.recordInputs times blockHash height spent)

/-- Stop the sweep below a height. -/
def interruptSweep (cursor : Nat) : ScanM SpScanOutcome :=
  if cursor = 0 then
    throw .outOfRange
  else do
    checkpointSpend (cursor - 1)
    let stores ← get
    pure stores.interrupted

/-- Drive a sweep to `stop`, jumping over heights with nothing to watch. -/
def runSweep
    (times : Nat → Option Nat)
    (script : SweepScript)
    (stop : Nat) :
    Nat → Nat → WatchableSet → Nat → ScanM SpScanOutcome
  | 0, _, _, _ => do
      checkpointSpend stop
      pure .completed
  | fuel + 1, request, watch, cursor =>
      if cursor ≤ stop then
        if script.stop request then
          interruptSweep cursor
        else
          match script.next request cursor watch.outpoints with
          | .error reason => throw reason
          | .ok (blockHash, spent) => do
              recordSpent times blockHash cursor spent
              let watch := spent.toList.foldl WatchableSet.remove watch
              checkpointSpendIf (script.checkpoint request) cursor
              match watch.floor with
              | none => do
                  checkpointSpend stop
                  pure .completed
              | some floor =>
                  if floor > cursor + 1 then do
                    checkpointSpend (floor - 1)
                    runSweep times script stop fuel (request + 1) watch floor
                  else
                    runSweep times script stop fuel (request + 1) watch
                      (cursor + 1)
      else do
        checkpointSpend stop
        pure .completed

def processSpends
    (script : ScanScript)
    (start stop : Nat) : ScanM SpScanOutcome := do
  let stores ← get
  let resume := stores.effectiveSpendStart start
  let watch := WatchableSet.new (stores.coins.watchable resume)
  match watch.floor with
  | none => do
      checkpointSpend stop
      pure .completed
  | some floor =>
      let cursor := max resume floor
      if cursor > stop then do
        checkpointSpend stop
        pure .completed
      else
        runSweep script.times script.sweep stop (stop + 1 - cursor) 0 watch
          cursor

/-- One round of `restamp_missing_timestamps`. -/
def SpTxStore.restampTx
    (times : Nat → Option Nat)
    (progress : SpTxStore × Bool)
    (tx : Txid × SpTxEntry) : SpTxStore × Bool :=
  if tx.2.timestamp.isSome then
    progress
  else
    match tx.2.height.bind times with
    | some time => (progress.1.updateTimestamp tx.2.txid time, true)
    | none => progress

/-- Stamp the confirmed transactions still missing a block time. -/
def SpTxStore.restampMissingTimestamps
    (txs : SpTxStore)
    (times : Nat → Option Nat) : SpTxStore :=
  let (stamped, any) :=
    txs.transactions.foldl (SpTxStore.restampTx times) (txs, false)
  if any then stamped.persist else stamped

/-- A spend frontier that was never recorded starts below the scan. -/
def startSpendFrontier (start : Nat) : ScanM Unit := do
  let stores ← get
  if stores.state.lastSpendHeight.isNone ∧ start ≥ 1 then
    checkpointSpend (start - 1)
  else
    pure ()

def scanPasses (script : ScanScript) (start stop : Nat) :
    ScanM SpScanOutcome := do
  let stores ← get
  if stop < start ∧ stop < stores.effectiveSpendStart start then
    throw (.invalidRange start stop)
  else if start ≤ stop then do
    let outcome ← processBlocks script start stop
    match outcome with
    | .completed => processSpends script start stop
    | .interrupted lastScanned lastSpend =>
        pure (.interrupted lastScanned lastSpend)
  else
    processSpends script start stop

/-- One scan of the blocks from `start` to `stop`. -/
def processScan (script : ScanScript) (start stop : Nat) :
    ScanM SpScanOutcome := do
  let start ← handleReorg script start
  modify (fun stores =>
    { stores with
      txs := stores.txs.restampMissingTimestamps script.times })
  startSpendFrontier start
  scanPasses script start stop

end Bwk
