import Bwk.AddressStore
import Bwk.HeaderStore

namespace Bwk

/-!
# The coin store

`electrum/src/coin_store.rs`: what a scan knows.  The listener folds the
server's histories and transactions into it, and the reconciler moves each
transaction along its confirmation states.  The coins are a function of the
stored transactions and the watched scripts, recomputed by `generate`.
-/

/-- A history as the server reports it: transactions with their heights. -/
abbrev History := List (Txid × Option Nat)

abbrev HistoryMap := BTreeMap Txid (Option Nat)

/-- The successive histories of a script, never empty. -/
structure SpkHistory where
  history : List HistoryMap
  nonempty : history ≠ []

/-- What changed from one history to the next. -/
structure HistoryDiff where
  added : HistoryMap
  changed : HistoryMap
  removed : HistoryMap

namespace SpkHistory

/-- A script nothing was reported on. -/
def new : SpkHistory where
  history := [∅]
  nonempty := by simp

def last (spk : SpkHistory) : HistoryMap :=
  spk.history.getLast spk.nonempty

/-- Record one more history. -/
def push (spk : SpkHistory) (next : HistoryMap) : SpkHistory where
  history := spk.history ++ [next]
  nonempty := by simp

/-- Record a new history and return the differences. -/
def insert (spk : SpkHistory) (reported : History) :
    HistoryDiff × SpkHistory :=
  let next := (∅ : HistoryMap).insertAll reported
  let previous := spk.last
  if previous.isEmpty then
    if next.isEmpty then
      (⟨∅, ∅, ∅⟩, spk)
    else
      (⟨next, ∅, ∅⟩, spk.push next)
  else
    (⟨next.retain (fun txid _ => txid ∉ previous),
      next.retain (fun txid height =>
        (previous[txid]?).any (fun before => height ≠ before)),
      previous.retain (fun txid _ => txid ∉ next)⟩,
      spk.push next)

end SpkHistory

/-- One slot for each transaction a history added. -/
def Update.fromDiff (spk : ScriptBuf) (diff : HistoryDiff) : Update where
  spk := spk
  txs := diff.added.keys.map (fun txid => (txid, none))

/-- A claim that a transaction is confirmed at a height. -/
structure ClaimAt where
  txid : Txid
  height : Nat
  deriving Repr, DecidableEq

inductive CoinStatus where
  | unconfirmed
  | confirmedUnverified
  | confirmed
  | spent
  deriving Repr, DecidableEq

/-- An output paid to a watched script. -/
structure Coin where
  txout : TxOut
  outpoint : OutPoint
  height : Option Nat
  status : CoinStatus
  label : Option String
  coinPath : KeyChain × Nat
  deriving Repr, DecidableEq

def Coin.spk (coin : Coin) : ScriptBuf :=
  coin.txout.scriptPubkey

/-- What the store tells its owner. -/
inductive CoinEvent where
  | coinReceived (outpoint : OutPoint) (amount : Nat) (height : Option Nat)
  | coinSpent (outpoint : OutPoint)
  | coinUpdate
  deriving Repr, DecidableEq

/-- What a scan knows. -/
structure CoinStore (Backend : Type) where
  store : BTreeMap OutPoint Coin
  /-- The coins of each script that has one. -/
  spkToOutpoint : BTreeMap ScriptBuf (BTreeSet OutPoint)
  labels : BTreeMap OutPoint String
  addressStore : AddressStore
  txStore : TxStore Backend
  spkHistory : BTreeMap ScriptBuf SpkHistory
  /-- Updates still waiting for some of their transactions. -/
  updates : List Update
  /-- `false` until the first `generate`. -/
  generated : Bool
  /-- Claims by server-reported height, waiting for a header there. -/
  pendingClaims : BTreeMap Nat (BTreeSet Txid)
  /-- Claims with a proof fetch in flight. -/
  merkleInFlight : Finset ClaimAt
  /-- Whether a header scanner verifies what the server reports. -/
  headerScanner : Bool
  /-- Every event sent so far. -/
  events : List CoinEvent

/-- What a history response leads to. -/
structure HistoryOutcome where
  heightUpdated : Bool
  missingTxs : List Txid
  reported : List ClaimAt
  deriving Repr, DecidableEq

/-- What a pass over the chain leads to. -/
structure ChainUpdateOutcome where
  toFetch : List ClaimAt
  changed : Bool
  deriving Repr, DecidableEq

def Inclusion.coinStatus : Inclusion → CoinStatus
  | .unconfirmed | .verifyFailed _ _ => .unconfirmed
  | .confirmedUnverified _ _ => .confirmedUnverified
  | .verified _ _ => .confirmed

/--
Without a header scanner nothing will ever verify a reported confirmation, so
it reads as confirmed.
-/
def coinStatus (headerScanner : Bool) (inclusion : Inclusion) : CoinStatus :=
  match inclusion with
  | .confirmedUnverified _ _ =>
      if headerScanner then .confirmedUnverified else .confirmed
  | inclusion => inclusion.coinStatus

namespace CoinStore

variable {Backend : Type}

/-- The coins one stored transaction pays to watched scripts. -/
def receivedFrom
    (crate : TxCrate)
    (coins : CoinStore Backend)
    (entry : TxEntry) : List (OutPoint × Coin) :=
  entry.tx.output.zipIdx.filterMap (fun (txout, vout) =>
    (coins.addressStore.getEntry txout.scriptPubkey).map (fun address =>
      let outpoint : OutPoint := ⟨crate.computeTxid entry.tx, vout⟩
      (outpoint,
        { txout := txout
          outpoint := outpoint
          height := entry.height
          status := coinStatus coins.headerScanner entry.inclusion
          label := coins.labels[outpoint]?
          coinPath := (address.account, address.index) })))

def receivedCoins
    (crate : TxCrate)
    (coins : CoinStore Backend) : BTreeMap OutPoint Coin :=
  (∅ : BTreeMap OutPoint Coin).insertAll
    (coins.txStore.iter.flatMap
      (fun stored => coins.receivedFrom crate stored.2))

def spentOutpoints (coins : CoinStore Backend) : List OutPoint :=
  coins.txStore.iter.flatMap
    (fun stored => stored.2.tx.input.map TxIn.previousOutput)

def markSpent
    (received : BTreeMap OutPoint Coin)
    (outpoint : OutPoint) : BTreeMap OutPoint Coin :=
  received.modify outpoint (fun coin => { coin with status := .spent })

/-- The coins the stored transactions and watched scripts give. -/
def coinMap
    (crate : TxCrate)
    (coins : CoinStore Backend) : BTreeMap OutPoint Coin :=
  coins.spentOutpoints.foldl markSpent (coins.receivedCoins crate)

def outpointsBySpk
    (coinMap : BTreeMap OutPoint Coin) :
    BTreeMap ScriptBuf (BTreeSet OutPoint) :=
  coinMap.toList.foldl
    (fun index (outpoint, coin) =>
      index.insert coin.spk ((index[coin.spk]?.getD ∅).insert outpoint))
    ∅

def fundingTxids
    (coinMap : BTreeMap OutPoint Coin)
    (spk : ScriptBuf) : BTreeSet Txid :=
  Std.ExtTreeSet.ofList
    ((coinMap.toList.filter (fun row => row.2.spk = spk)).map
      (fun row => row.1.txid))

def spendingTxids
    (coins : CoinStore Backend)
    (coinMap : BTreeMap OutPoint Coin)
    (spk : ScriptBuf) : BTreeSet Txid :=
  Std.ExtTreeSet.ofList
    ((coins.txStore.iter.filter (fun stored =>
      stored.2.tx.input.any (fun input =>
        (coinMap[input.previousOutput]?).any
          (fun coin => coin.spk = spk)))).map Prod.fst)

/-- How often a script received, by the number of its coins. -/
def usage
    (coinMap : BTreeMap OutPoint Coin)
    (spk : ScriptBuf) : AddressStatus :=
  match (coinMap.toList.filter (fun row => row.2.spk = spk)).length with
  | 0 => .notUsed
  | 1 => .used
  | _ => .reused

/-- Record the usage of every script that has a coin. -/
def updateAddresses
    (coins : CoinStore Backend)
    (coinMap : BTreeMap OutPoint Coin) : AddressStore :=
  let spks := Std.ExtTreeSet.ofList (coinMap.toList.map (fun row => row.2.spk))
  spks.toList.foldl
    (fun addresses spk =>
      addresses.setUsage spk (usage coinMap spk) (fundingTxids coinMap spk)
        (coins.spendingTxids coinMap spk))
    coins.addressStore

def storedOutputs
    (crate : TxCrate)
    (coins : CoinStore Backend) : BTreeMap OutPoint TxOut :=
  (∅ : BTreeMap OutPoint TxOut).insertAll
    (coins.txStore.transactions.flatMap (fun entry =>
      entry.tx.output.zipIdx.map (fun (txout, vout) =>
        (⟨crate.computeTxid entry.tx, vout⟩, txout))))

def inputMetadata
    (coins : CoinStore Backend)
    (outputs : BTreeMap OutPoint TxOut)
    (input : TxIn) : InputMetadata :=
  match outputs[input.previousOutput]? with
  | some txout =>
      let owned := coins.addressStore.containsSpk txout.scriptPubkey
      ⟨if owned then some txout.value else none, owned⟩
  | none => ⟨none, false⟩

def withMetadata
    (coins : CoinStore Backend)
    (outputs : BTreeMap OutPoint TxOut)
    (entry : TxEntry) : TxEntry :=
  { entry with
    inputs := entry.tx.input.map (coins.inputMetadata outputs)
    outputs :=
      entry.tx.output.map (fun txout =>
        ⟨coins.addressStore.containsSpk txout.scriptPubkey⟩) }

/-- Recompute the metadata of every stored transaction. -/
def populateTxMetadata
    (crate : TxCrate)
    (coins : CoinStore Backend) : CoinStore Backend :=
  let outputs := coins.storedOutputs crate
  { coins with
    txStore :=
      coins.txStore.transactions.foldl
        (fun txs entry =>
          let known := coins.withMetadata outputs entry
          if entry.outputs ≠ known.outputs ∨ entry.inputs ≠ known.inputs then
            txs.update crate known
          else
            txs)
        coins.txStore }

/-- The events from the coins `previous` to the coins `current`. -/
def coinEvents (previous current : BTreeMap OutPoint Coin) :
    List CoinEvent :=
  let isSpent (coin : Coin) : Bool := coin.status = .spent
  current.toList.flatMap (fun (outpoint, coin) =>
      let before := previous[outpoint]?
      (if before.isNone then
        [.coinReceived outpoint coin.txout.value coin.height]
      else
        []) ++
      (if isSpent coin ∧ ¬ before.any isSpent then
        [.coinSpent outpoint]
      else
        [])) ++
    previous.toList.filterMap (fun (outpoint, coin) =>
      if outpoint ∉ current ∧ ¬ isSpent coin then
        some (.coinSpent outpoint)
      else
        none)

/-- Recompute the coins and all that follows from them. -/
def generate
    [PersistenceBackend Backend Txid TxEntry]
    (crate : TxCrate)
    (coins : CoinStore Backend) : CoinStore Backend :=
  let current := coins.coinMap crate
  let populated :=
    populateTxMetadata crate
      { coins with
        store := current
        spkToOutpoint := outpointsBySpk current
        addressStore := coins.updateAddresses current }
  { populated with
    txStore := populated.txStore.persist
    generated := true
    events :=
      coins.events ++
        (if coins.generated then coinEvents coins.store current else []) ++
        [.coinUpdate] }

def insertPendingClaim
    (coins : CoinStore Backend)
    (claim : ClaimAt) : CoinStore Backend :=
  { coins with
    pendingClaims :=
      coins.pendingClaims.insert claim.height
        ((coins.pendingClaims[claim.height]?.getD ∅).insert claim.txid) }

/-- Keep what is left of each height's claims, without the emptied ones. -/
def retainClaims
    (left : Nat → BTreeSet Txid → BTreeSet Txid)
    (coins : CoinStore Backend) : CoinStore Backend :=
  { coins with
    pendingClaims :=
      coins.pendingClaims.filterMap (fun height txids =>
        let kept := left height txids
        if kept.isEmpty then none else some kept) }

/-- Drop the transaction's claims at every other height. -/
def prunePendingClaim
    (coins : CoinStore Backend)
    (keep : ClaimAt) : CoinStore Backend :=
  coins.retainClaims (fun height txids =>
    if height ≠ keep.height then txids.erase keep.txid else txids)

def dropAllPendingClaims
    (coins : CoinStore Backend)
    (txid : Txid) : CoinStore Backend :=
  coins.retainClaims (fun _ txids => txids.erase txid)

/-- Drop one resolved claim. -/
def removePendingClaim
    (coins : CoinStore Backend)
    (claim : ClaimAt) : CoinStore Backend :=
  match coins.pendingClaims[claim.height]? with
  | none => coins
  | some txids =>
      let kept := txids.erase claim.txid
      { coins with
        pendingClaims :=
          if kept.isEmpty then
            coins.pendingClaims.erase claim.height
          else
            coins.pendingClaims.insert claim.height kept }

/-- Every queued claim, by height and then by transaction. -/
def pendingClaimsSnapshot (coins : CoinStore Backend) : List ClaimAt :=
  coins.pendingClaims.toList.flatMap (fun (height, txids) =>
    txids.toList.map (fun txid => ⟨txid, height⟩))

def pendingClaimHeight
    (coins : CoinStore Backend)
    (txid : Txid) : Option Nat :=
  (coins.pendingClaims.toList.find? (fun row => txid ∈ row.2)).map Prod.fst

def pendingClaimHeights (coins : CoinStore Backend) : List Nat :=
  coins.pendingClaims.keys

/-- The fetch of a proof resolved. -/
def clearMerkleInFlight
    (coins : CoinStore Backend)
    (claim : ClaimAt) : CoinStore Backend :=
  { coins with merkleInFlight := coins.merkleInFlight.erase claim }

/-- Some incomplete update refers to the transaction. -/
def updateInFlight (coins : CoinStore Backend) (txid : Txid) : Bool :=
  coins.updates.any (fun update =>
    update.txs.any (fun slot => slot.1 = txid))

def updateSpkHistory
    (coins : CoinStore Backend)
    (spk : ScriptBuf)
    (history : History) : (Bool × Update) × CoinStore Backend :=
  let (diff, known) :=
    (coins.spkHistory[spk]?.getD SpkHistory.new).insert history
  let dropped := diff.removed.keys.foldl TxStore.remove coins.txStore
  let demoted :=
    diff.changed.keys.foldl
      (fun txs txid => txs.updateInclusion txid .unconfirmed) dropped
  let unclaimed :=
    diff.changed.keys.foldl dropAllPendingClaims
      { coins with
        spkHistory := coins.spkHistory.insert spk known
        txStore := demoted }
  ((!diff.changed.isEmpty, Update.fromDiff spk diff),
    { unclaimed with
      merkleInFlight :=
        unclaimed.merkleInFlight.filter (fun claim =>
          claim.txid ∉ diff.removed ∧ claim.txid ∉ diff.changed) })

/-- The claims a history reports; a height past 32 bits is none. -/
def reportedClaims (history : History) : List ClaimAt :=
  history.filterMap (fun (txid, height) =>
    match height with
    | some height => if height ≤ u32Max then some ⟨txid, height⟩ else none
    | none => none)

def updateHistories
    (coins : CoinStore Backend) :
    List (ScriptBuf × History) →
      List (Bool × Update) × CoinStore Backend
  | [] => ([], coins)
  | (spk, history) :: rest =>
      let watched :=
        { coins with addressStore := coins.addressStore.recvCoinAt spk }
      let (update, folded) := watched.updateSpkHistory spk history
      let (updates, after) := folded.updateHistories rest
      (update :: updates, after)

def prefill (txs : TxStore Backend) (update : Update) : Update :=
  { update with
    txs :=
      update.txs.map (fun slot =>
        match txs.innerGet slot.1 with
        | some tx => (slot.1, some tx)
        | none => slot) }

def applyComplete
    (crate : TxCrate)
    (txs : TxStore Backend)
    (updates : List Update) : List Update × TxStore Backend :=
  (updates.filter (fun update => !update.isComplete),
    (updates.filter Update.isComplete).foldl (TxStore.insertUpdate crate)
      txs)

def handleHistoryResponse
    [PersistenceBackend Backend Txid TxEntry]
    (crate : TxCrate)
    (coins : CoinStore Backend)
    (hist : BTreeMap ScriptBuf History) :
    HistoryOutcome × CoinStore Backend :=
  let (folded, after) := coins.updateHistories hist.toList
  let updates := folded.map (fun update => prefill after.txStore update.2)
  let (waiting, txs) := applyComplete crate after.txStore updates
  let stored :=
    { after with txStore := txs, updates := after.updates ++ waiting }
  (⟨folded.any Prod.fst,
      updates.flatMap Update.missing,
      hist.toList.flatMap (fun row => reportedClaims row.2)⟩,
    if stored.addressStore.recvWatchTip = coins.addressStore.recvWatchTip ∧
        stored.addressStore.changeWatchTip =
          coins.addressStore.changeWatchTip then
      stored
    else
      stored.generate crate)

/-- Hand a received transaction to every slot waiting for it. -/
def receiveTx
    (crate : TxCrate)
    (updates : List Update)
    (tx : Transaction) : List Update :=
  updates.map (fun update =>
    { update with
      txs :=
        update.txs.map (fun slot =>
          if slot.1 = crate.computeTxid tx ∧ slot.2.isNone then
            (slot.1, some tx)
          else
            slot) })

/-- Fold the transactions the server sent. -/
def handleTxsResponse
    [PersistenceBackend Backend Txid TxEntry]
    (crate : TxCrate)
    (coins : CoinStore Backend)
    (txs : List Transaction) : CoinStore Backend :=
  let filled := txs.foldl (receiveTx crate) coins.updates
  let (waiting, stored) := applyComplete crate coins.txStore filled
  generate crate { coins with updates := waiting, txStore := stored }

/-- Record a just-broadcast transaction of ours. -/
def recordUnconfirmedTx
    [PersistenceBackend Backend Txid TxEntry]
    (crate : TxCrate)
    (coins : CoinStore Backend)
    (tx : Transaction) : CoinStore Backend :=
  let ownsInput :=
    tx.input.any (fun input => input.previousOutput ∈ coins.store)
  let ownsOutput :=
    tx.output.any (fun output =>
      coins.addressStore.containsSpk output.scriptPubkey)
  if !ownsInput && !ownsOutput then
    coins
  else
    match coins.txStore.get (crate.computeTxid tx) with
    | some _ => coins.generate crate
    | none =>
        generate crate
          { coins with
            txStore :=
              coins.txStore.update crate (TxEntry.unconfirmed crate tx) }

/-- Queue one reported claim, unless the transaction is past it. -/
def recordReportedHeight
    (coins : CoinStore Backend)
    (claim : ClaimAt) : CoinStore Backend :=
  let pruned := coins.prunePendingClaim claim
  match coins.txStore.inclusionOf claim.txid with
  | some .unconfirmed | none => pruned.insertPendingClaim claim
  | some _ => pruned

def recordReportedHeights
    (coins : CoinStore Backend)
    (reported : List ClaimAt) : CoinStore Backend :=
  reported.foldl recordReportedHeight coins

/-- Every stored transaction with its inclusion, in key order. -/
def snapshotInclusions (coins : CoinStore Backend) :
    List (Txid × Inclusion) :=
  coins.txStore.iter.map (fun stored => (stored.1, stored.2.inclusion))

structure ChainPass (Backend : Type) where
  coins : CoinStore Backend
  outcome : ChainUpdateOutcome

/-- Nothing done yet. -/
def ChainPass.start (coins : CoinStore Backend) : ChainPass Backend where
  coins := coins
  outcome := ⟨[], false⟩

/-- Stamp a transaction with the block at its claimed height and ask for it. -/
def ChainPass.stamp
    (pass : ChainPass Backend)
    (claim : ClaimAt)
    (blockHash : BlockHash) : ChainPass Backend where
  coins :=
    { pass.coins with
      txStore :=
        pass.coins.txStore.updateInclusion claim.txid
          (.confirmedUnverified claim.height blockHash)
      merkleInFlight := insert claim pass.coins.merkleInFlight }
  outcome := ⟨pass.outcome.toFetch ++ [claim], true⟩

/-- Ask for a proof again. -/
def ChainPass.requeue
    (pass : ChainPass Backend)
    (claim : ClaimAt) : ChainPass Backend where
  coins :=
    { pass.coins with
      merkleInFlight := insert claim pass.coins.merkleInFlight }
  outcome :=
    { pass.outcome with toFetch := pass.outcome.toFetch ++ [claim] }

section Chain

variable {HeaderRows Raw : Type}
variable (btc : Bitcoin Raw) (headers : HeaderStore HeaderRows Raw)

/-- Look at one stored transaction again. -/
def reverifyEntry
    (pass : ChainPass Backend)
    (entry : Txid × Inclusion) : ChainPass Backend :=
  match entry.2 with
  | .confirmedUnverified height blockHash =>
      let claim : ClaimAt := ⟨entry.1, height⟩
      match headers.blockHash btc height with
      | some current =>
          if claim ∈ pass.coins.merkleInFlight then
            pass
          else if current = blockHash then
            pass.requeue claim
          else
            pass.stamp claim current
      | none => pass
  | .verified height blockHash | .verifyFailed height blockHash =>
      match headers.blockHash btc height with
      | some current =>
          if current ≠ blockHash then
            pass.stamp ⟨entry.1, height⟩ current
          else
            pass
      | none => pass
  | .unconfirmed => pass

/-- Ask again for open proofs and reopen those of replaced blocks. -/
def reverifyReminedEntries
    (coins : CoinStore Backend) : ChainPass Backend :=
  coins.snapshotInclusions.foldl (reverifyEntry btc headers)
    (ChainPass.start coins)

/-- The header a claim at `height` waits for, when the chain has it. -/
def readyHash (height : Nat) : Option BlockHash :=
  if headers.tip.any (fun tip => tip ≥ height) then
    headers.blockHash btc height
  else
    none

/-- The claim is settled, one way or the other, and leaves the queue. -/
def claimSettled
    (coins : CoinStore Backend)
    (claim : ClaimAt) : Bool :=
  match coins.txStore.inclusionOf claim.txid with
  | none => !coins.updateInFlight claim.txid
  | some .unconfirmed => (readyHash btc headers claim.height).isSome
  | some _ => true

/-- Promote the claimed transaction when its header is known. -/
def resolveClaim
    (pass : ChainPass Backend)
    (claim : ClaimAt) : ChainPass Backend :=
  match pass.coins.txStore.inclusionOf claim.txid,
      readyHash btc headers claim.height with
  | some .unconfirmed, some blockHash => pass.stamp claim blockHash
  | _, _ => pass

/-- The loop over the queued claims, with the claims that leave it. -/
def resolveClaims
    (pass : ChainPass Backend) :
    List ClaimAt → List ClaimAt × ChainPass Backend
  | [] => ([], pass)
  | claim :: rest =>
      let settled := claimSettled btc headers pass.coins claim
      let (removed, after) :=
        resolveClaims (resolveClaim btc headers pass claim) rest
      (if settled then claim :: removed else removed, after)

/-- Promote the claims whose header is known and drop the dead ones. -/
def resolvePendingClaims
    (coins : CoinStore Backend) : ChainPass Backend :=
  let (removed, pass) :=
    resolveClaims btc headers (ChainPass.start coins)
      coins.pendingClaimsSnapshot
  { pass with coins := removed.foldl removePendingClaim pass.coins }

/-- Promote one claim into the block the server named, or drop a dead one. -/
def confirmClaim
    (reportedHeight : Nat)
    (header : Header)
    (pass : Bool × CoinStore Backend)
    (txid : Txid) : Bool × CoinStore Backend :=
  let claim : ClaimAt := ⟨txid, reportedHeight⟩
  match pass.2.txStore.inclusionOf txid with
  | none =>
      if pass.2.updateInFlight txid then
        pass
      else
        (pass.1, pass.2.removePendingClaim claim)
  | some .unconfirmed =>
      let promoted :=
        pass.2.txStore.updateInclusion txid
          (.confirmedUnverified reportedHeight (btc.blockHash header))
      (true,
        removePendingClaim
          { pass.2 with
            txStore := promoted.updateTimestamp txid header.time }
          claim)
  | some _ => (pass.1, pass.2.removePendingClaim claim)

/--
Promote the claims queued at a height into the block of the header the server
returned for it.  A claim whose transaction has not landed stays queued.
-/
def confirmPendingClaims
    (coins : CoinStore Backend)
    (reportedHeight : Nat)
    (header : Header) : Bool × CoinStore Backend :=
  match coins.pendingClaims[reportedHeight]? with
  | none => (false, coins)
  | some txids =>
      txids.toList.foldl (confirmClaim btc reportedHeight header)
        (false, coins)

def stampConfirmationTimes
    [PersistenceBackend Backend Txid TxEntry]
    (coins : CoinStore Backend) : CoinStore Backend :=
  let stamps :=
    coins.txStore.iter.filterMap (fun (txid, entry) =>
      if entry.timestamp.isSome then
        none
      else
        entry.height.bind (fun height =>
          (headers.header btc height).map
            (fun header => (txid, header.time))))
  if stamps.isEmpty then
    coins
  else
    { coins with
      txStore :=
        (stamps.foldl
          (fun txs stamp => txs.updateTimestamp stamp.1 stamp.2)
          coins.txStore).persist }

end Chain

/-- The claim of every transaction whose proof is open. -/
def confirmedUnverifiedClaims (coins : CoinStore Backend) : List ClaimAt :=
  coins.snapshotInclusions.filterMap (fun (txid, inclusion) =>
    match inclusion with
    | .confirmedUnverified height _ => some ⟨txid, height⟩
    | _ => none)

def spksWithUnconfirmedTxs (coins : CoinStore Backend) : List ScriptBuf :=
  (Std.ExtTreeSet.ofList
    ((coins.store.toList.filter (fun row =>
      coins.txStore.inclusionOf row.1.txid = some .unconfirmed)).map
        (fun row => row.2.spk))).toList

end CoinStore

end Bwk
