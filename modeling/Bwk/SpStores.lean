import Bwk.TxStore

/-!
# The stores of a silent-payment wallet

`sp/src/account/coin_store.rs`, `sp/src/account/tx_store.rs` and
`sp/src/scan/state.rs`: the coins and transactions a scan records, and how far
it got.
-/

namespace Bwk

/-- Where an output stands with respect to being spent. -/
inductive OutputSpendStatus where
  | unspent
  /-- Spent by our own broadcast; the block is set once it confirms. -/
  | spent (txid : Txid) (blockHash : Option BlockHash)
  /-- Found spent by a scan, in a transaction that is not known. -/
  | mined (blockHash : BlockHash)
  deriving Repr, DecidableEq

def OutputSpendStatus.blockHash : OutputSpendStatus → Option BlockHash
  | .unspent => none
  | .spent _ blockHash => blockHash
  | .mined blockHash => some blockHash

/-- The known transaction that spends. -/
def OutputSpendStatus.spender : OutputSpendStatus → Option Txid
  | .spent txid _ => some txid
  | .unspent | .mined _ => none

/-- A spend is confirmed; one whose transaction is known keeps it. -/
def OutputSpendStatus.confirmed
    (status : OutputSpendStatus)
    (blockHash : BlockHash) : OutputSpendStatus :=
  match status with
  | .spent txid _ => .spent txid (some blockHash)
  | .unspent | .mined _ => .mined blockHash

def OutputSpendStatus.undone
    (reorged : List BlockHash) : OutputSpendStatus → OutputSpendStatus
  | .spent txid (some hash) =>
      if hash ∈ reorged then .spent txid none else .spent txid (some hash)
  | .mined hash => if hash ∈ reorged then .unspent else .mined hash
  | .spent txid none => .spent txid none
  | .unspent => .unspent

/-- Confirming a spend keeps the transaction that spends. -/
@[simp] theorem OutputSpendStatus.spender_confirmed
    (status : OutputSpendStatus)
    (blockHash : BlockHash) :
    (status.confirmed blockHash).spender = status.spender := by
  cases status <;> rfl

/-- Undoing a confirmation keeps the transaction that spends. -/
@[simp] theorem OutputSpendStatus.spender_undone
    (reorged : List BlockHash)
    (status : OutputSpendStatus) :
    (status.undone reorged).spender = status.spender := by
  cases status with
  | unspent =>
      rfl
  | spent txid hash =>
      cases hash with
      | none =>
          rfl
      | some hash =>
          simp only [undone]
          split <;> rfl
  | mined hash =>
      simp only [undone]
      split <;> rfl

/-- An output paid to one of our keys. -/
structure OwnedOutput where
  blockheight : Option Nat
  tweak : Nat
  amount : Nat
  script : ScriptBuf
  label : Option Nat
  spendStatus : OutputSpendStatus
  deriving Repr, DecidableEq

/-- A coin: an owned output under its outpoint. -/
structure SpCoinEntry where
  outpoint : OutPoint
  output : OwnedOutput
  deriving Repr, DecidableEq

namespace SpCoinEntry

def height (entry : SpCoinEntry) : Option Nat :=
  entry.output.blockheight

def status (entry : SpCoinEntry) : OutputSpendStatus :=
  entry.output.spendStatus

def withStatus
    (entry : SpCoinEntry)
    (status : OutputSpendStatus) : SpCoinEntry :=
  { entry with output := { entry.output with spendStatus := status } }

@[simp] theorem status_withStatus
    (entry : SpCoinEntry)
    (status : OutputSpendStatus) :
    (entry.withStatus status).status = status :=
  rfl

@[simp] theorem height_withStatus
    (entry : SpCoinEntry)
    (status : OutputSpendStatus) :
    (entry.withStatus status).height = entry.height :=
  rfl

end SpCoinEntry

/-- The silent-payment coins. -/
structure SpCoinStore where
  store : RamStore (RowBackend OutPoint SpCoinEntry) OutPoint SpCoinEntry

namespace SpCoinStore

def withBackend (backend : RowBackend OutPoint SpCoinEntry) : SpCoinStore :=
  ⟨RamStore.empty backend⟩

def loadFromBackend
    (backend : RowBackend OutPoint SpCoinEntry) : SpCoinStore :=
  ⟨RamStore.open_ backend⟩

def get (coins : SpCoinStore) (outpoint : OutPoint) : Option SpCoinEntry :=
  coins.store.get outpoint

def insert
    (coins : SpCoinStore)
    (outpoint : OutPoint)
    (output : OwnedOutput) : SpCoinStore :=
  ⟨coins.store.insert outpoint ⟨outpoint, output⟩⟩

def remove (coins : SpCoinStore) (outpoint : OutPoint) : SpCoinStore :=
  ⟨coins.store.remove outpoint⟩

def setStatus
    (coins : SpCoinStore)
    (outpoint : OutPoint)
    (status : SpCoinEntry → OutputSpendStatus) : SpCoinStore :=
  ⟨coins.store.modify outpoint (fun entry => entry.withStatus (status entry))⟩

def markSpent
    (coins : SpCoinStore)
    (outpoint : OutPoint)
    (spendingTxid : Txid) : SpCoinStore :=
  coins.setStatus outpoint (fun _ => .spent spendingTxid none)

def confirmSpend
    (coins : SpCoinStore)
    (outpoint : OutPoint)
    (blockHash : BlockHash) : SpCoinStore :=
  coins.setStatus outpoint
    (fun entry => entry.status.confirmed blockHash)

/-- Every coin, in key order. -/
def coins (coins : SpCoinStore) : List (OutPoint × SpCoinEntry) :=
  coins.store.cache.toList

/-- One round of `roll_back`. -/
def rollBackCoin
    (forkHeight : Nat)
    (reorged : List BlockHash)
    (coins : SpCoinStore)
    (coin : OutPoint × SpCoinEntry) : SpCoinStore :=
  if coin.2.height.any (fun height => height > forkHeight) then
    coins.remove coin.1
  else
    match coin.2.status with
    | .spent txid (some hash) =>
        if hash ∈ reorged then
          coins.setStatus coin.1 (fun _ => .spent txid none)
        else
          coins
    | .mined hash =>
        if hash ∈ reorged then
          coins.setStatus coin.1 (fun _ => .unspent)
        else
          coins
    | _ => coins

/-- Undo what the blocks above `forkHeight` recorded. -/
def rollBack
    (coins : SpCoinStore)
    (forkHeight : Nat)
    (reorged : List BlockHash) : SpCoinStore :=
  coins.coins.foldl (rollBackCoin forkHeight reorged) coins

def spendingTxids (coins : SpCoinStore) : List Txid :=
  coins.coins.filterMap (fun coin =>
    match coin.2.status with
    | .spent txid _ => some txid
    | _ => none)

/-- Write the coins back; a failure is only logged. -/
def persist (coins : SpCoinStore) : SpCoinStore :=
  ⟨coins.store.flush.2⟩

end SpCoinStore

/-- A transaction the wallet knows about. -/
structure SpTxEntry where
  txid : Txid
  tx : Option Transaction
  fee : Option Nat
  height : Option Nat
  timestamp : Option Nat
  label : Option String
  change : Nat
  deriving Repr, DecidableEq

namespace SpTxEntry

/-- A transaction of which only the name is known. -/
def new (txid : Txid) : SpTxEntry :=
  ⟨txid, none, none, none, none, none, 0⟩

def withTx (txid : Txid) (tx : Transaction) : SpTxEntry :=
  { new txid with tx := some tx }

end SpTxEntry

/-- The silent-payment transactions. -/
structure SpTxStore where
  store : RamStore (RowBackend Txid SpTxEntry) Txid SpTxEntry

namespace SpTxStore

def withBackend (backend : RowBackend Txid SpTxEntry) : SpTxStore :=
  ⟨RamStore.empty backend⟩

/-- The transactions a backend holds. -/
def loadFromBackend (backend : RowBackend Txid SpTxEntry) : SpTxStore :=
  ⟨RamStore.open_ backend⟩

/-- The transaction under a name. -/
def get (txs : SpTxStore) (txid : Txid) : Option SpTxEntry :=
  txs.store.get txid

/-- Store a transaction under its own name. -/
def insert (txs : SpTxStore) (entry : SpTxEntry) : SpTxStore :=
  ⟨txs.store.insert entry.txid entry⟩

/-- Drop a transaction. -/
def remove (txs : SpTxStore) (txid : Txid) : SpTxStore :=
  ⟨txs.store.remove txid⟩

/-- Set the height of a transaction. -/
def updateHeight
    (txs : SpTxStore)
    (txid : Txid)
    (height : Option Nat) : SpTxStore :=
  ⟨txs.store.modify txid (fun entry => { entry with height := height })⟩

/-- Set the timestamp of a transaction. -/
def updateTimestamp
    (txs : SpTxStore)
    (txid : Txid)
    (timestamp : Nat) : SpTxStore :=
  ⟨txs.store.modify txid
    (fun entry => { entry with timestamp := some timestamp })⟩

/-- Every transaction, in key order. -/
def transactions (txs : SpTxStore) : List (Txid × SpTxEntry) :=
  txs.store.cache.toList

/-- One round of `roll_back`. -/
def rollBackTx
    (forkHeight : Nat)
    (pending : List Txid)
    (txs : SpTxStore)
    (tx : Txid × SpTxEntry) : SpTxStore :=
  if tx.2.height.all (fun height => height ≤ forkHeight) then
    txs
  else if tx.2.txid ∉ pending then
    txs.remove tx.2.txid
  else
    ⟨txs.store.modify tx.2.txid
      (fun entry => { entry with height := none, timestamp := none })⟩

/-- Undo the confirmations above `forkHeight`. -/
def rollBack
    (txs : SpTxStore)
    (forkHeight : Nat)
    (pending : List Txid) : SpTxStore :=
  txs.transactions.foldl (rollBackTx forkHeight pending) txs

/-- Write the transactions back; a failure is only logged. -/
def persist (txs : SpTxStore) : SpTxStore :=
  ⟨txs.store.flush.2⟩

end SpTxStore

/-- Number of last scanned block hashes kept. -/
def reorgDepth : Nat := 6

/-- The rows of the `account` store a scan state is kept in. -/
structure AccountRows where
  lastScannedHeight : Option (Option Nat)
  birthdayHeight : Option Nat
  lastSpendHeight : Option (Option Nat)
  /-- Whether each coming write fails; later ones succeed. -/
  faults : List Bool
  deriving Repr, DecidableEq

/-- Tracks how far the wallet has scanned. -/
structure ScanState where
  lastScannedHeight : Option Nat
  blockHashes : RamStore (RowBackend Nat BlockHash) Nat BlockHash
  lastSpendHeight : Option Nat
  birthdayHeight : Nat
  backend : AccountRows

namespace ScanState

def withBackend
    (birthdayHeight : Nat)
    (hashes : RowBackend Nat BlockHash)
    (backend : AccountRows) : ScanState where
  lastScannedHeight := none
  blockHashes := RamStore.empty hashes
  lastSpendHeight := none
  birthdayHeight := birthdayHeight
  backend := backend

def loadFromBackend
    (birthdayHeight : Nat)
    (hashes : RowBackend Nat BlockHash)
    (backend : AccountRows) : ScanState where
  lastScannedHeight := backend.lastScannedHeight.join
  blockHashes := RamStore.open_ hashes
  lastSpendHeight := backend.lastSpendHeight.join
  birthdayHeight := backend.birthdayHeight.getD birthdayHeight
  backend := backend

/-- The kept hashes, by height. -/
def scanned (state : ScanState) : BTreeMap Nat BlockHash :=
  state.blockHashes.cache

def advanceSpendFrontier (state : ScanState) (height : Nat) : ScanState :=
  if state.lastSpendHeight.all (fun last => height > last) then
    { state with lastSpendHeight := some height }
  else
    state

def dropBlockHashes (state : ScanState) (drop : Nat → Bool) : ScanState :=
  { state with
    blockHashes :=
      state.blockHashes.removeAll (state.scanned.keys.filter drop) }

/-- Move the receive frontier forward, with the hash of its block. -/
def advanceFrontier
    (state : ScanState)
    (height : Nat)
    (blockHash : BlockHash) : ScanState :=
  if state.lastScannedHeight.all (fun last => height > last) then
    dropBlockHashes
      { state with
        lastScannedHeight := some height
        blockHashes := state.blockHashes.insert height blockHash }
      (fun kept => kept < height + 1 - reorgDepth)
  else
    state

/-- Move both frontiers back to a fork. -/
def rollBack (state : ScanState) (forkHeight : Nat) : ScanState :=
  dropBlockHashes
    { state with
      lastScannedHeight := some forkHeight
      lastSpendHeight :=
        state.lastSpendHeight.map (fun height => min height forkHeight) }
    (fun kept => kept > forkHeight)

def nextScanStart (state : ScanState) : Nat :=
  match state.lastScannedHeight with
  | some height => height + 1
  | none => state.birthdayHeight

/-- Write the kept hashes back. -/
def flushHashes (state : ScanState) : Except PersistError Unit × ScanState :=
  (state.blockHashes.flush.1,
    { state with blockHashes := state.blockHashes.flush.2 })

/-- Write the three scalar rows back, in one batch. -/
def flushScalars (state : ScanState) : ScanState :=
  let (fails, later) := nextWrite state.backend.faults
  if fails then
    { state with backend := { state.backend with faults := later } }
  else
    { state with
      backend :=
        { lastScannedHeight := some state.lastScannedHeight
          birthdayHeight := some state.birthdayHeight
          lastSpendHeight := some state.lastSpendHeight
          faults := later } }

/-- Write the state back; a failure is only logged. -/
def persist (state : ScanState) : ScanState :=
  match state.flushHashes with
  | (.ok (), flushed) => flushed.flushScalars
  | (.error _, flushed) => flushed

end ScanState

namespace ScanState

variable (state : ScanState)

theorem flushScalars_eq :
    ∃ backend, state.flushScalars = { state with backend := backend } := by
  unfold flushScalars
  dsimp only
  split
  · exact ⟨_, rfl⟩
  · exact ⟨_, rfl⟩

theorem persist_eq :
    ∃ backend,
      state.persist =
        { state with
          blockHashes := state.blockHashes.flush.2
          backend := backend } := by
  unfold persist flushHashes
  cases state.blockHashes.flush.1 with
  | ok value =>
      obtain ⟨backend, shape⟩ :=
        flushScalars_eq
          { state with blockHashes := state.blockHashes.flush.2 }
      exact ⟨backend, shape⟩
  | error reason =>
      exact ⟨state.backend, rfl⟩

@[simp] theorem lastScannedHeight_persist :
    state.persist.lastScannedHeight = state.lastScannedHeight := by
  obtain ⟨backend, shape⟩ := state.persist_eq
  rw [shape]

@[simp] theorem lastSpendHeight_persist :
    state.persist.lastSpendHeight = state.lastSpendHeight := by
  obtain ⟨backend, shape⟩ := state.persist_eq
  rw [shape]

@[simp] theorem birthdayHeight_persist :
    state.persist.birthdayHeight = state.birthdayHeight := by
  obtain ⟨backend, shape⟩ := state.persist_eq
  rw [shape]

@[simp] theorem scanned_persist :
    state.persist.scanned = state.scanned := by
  obtain ⟨backend, shape⟩ := state.persist_eq
  rw [shape]
  exact RamStore.cache_flush ..

/-- Moving the receive frontier leaves the spend frontier. -/
@[simp] theorem lastSpendHeight_advanceFrontier
    (height : Nat)
    (blockHash : BlockHash) :
    (state.advanceFrontier height blockHash).lastSpendHeight =
      state.lastSpendHeight := by
  unfold advanceFrontier
  split <;> rfl

theorem lastSpendHeight_advanceSpendFrontier
    (height : Nat)
    {frontier : Nat}
    (reached : state.lastSpendHeight = some frontier) :
    (state.advanceSpendFrontier height).lastSpendHeight =
      some (max frontier height) := by
  unfold advanceSpendFrontier
  rw [reached]
  by_cases above : height > frontier
  · simp [above, Nat.max_eq_right (Nat.le_of_lt above)]
  · simp [above, Nat.max_eq_left (Nat.le_of_not_lt above), reached]

end ScanState

namespace SpCoinStore

variable (coins : SpCoinStore) (outpoint query : OutPoint)

@[simp] theorem get_insert (output : OwnedOutput) :
    (coins.insert outpoint output).get query =
      if outpoint = query then
        some ⟨outpoint, output⟩
      else
        coins.get query :=
  BTreeMap.getElem?_insert_eq ..

@[simp] theorem get_remove :
    (coins.remove outpoint).get query =
      if outpoint = query then none else coins.get query :=
  BTreeMap.getElem?_erase_eq ..

@[simp] theorem get_setStatus (status : SpCoinEntry → OutputSpendStatus) :
    (coins.setStatus outpoint status).get query =
      if outpoint = query then
        (coins.get query).map
          (fun entry => entry.withStatus (status entry))
      else
        coins.get query :=
  RamStore.getElem?_cache_modify ..

@[simp] theorem get_persist :
    coins.persist.get query = coins.get query := by
  simp only [persist, get, RamStore.get, RamStore.cache_flush]

def rolledBack
    (forkHeight : Nat)
    (reorged : List BlockHash)
    (entry : SpCoinEntry) : Option SpCoinEntry :=
  if entry.height.any (fun height => height > forkHeight) then
    none
  else
    some (entry.withStatus (entry.status.undone reorged))

/-- What one round makes of what is stored under its outpoint. -/
def roundOf
    (forkHeight : Nat)
    (reorged : List BlockHash)
    (entry : SpCoinEntry)
    (stored : Option SpCoinEntry) : Option SpCoinEntry :=
  if entry.height.any (fun height => height > forkHeight) then
    none
  else
    match entry.status with
    | .spent _ (some hash) | .mined hash =>
        if hash ∈ reorged then
          stored.map (fun coin =>
            coin.withStatus (entry.status.undone reorged))
        else
          stored
    | _ => stored

variable (forkHeight : Nat) (reorged : List BlockHash) (entry : SpCoinEntry)

theorem get_rollBackCoin_same :
    (coins.rollBackCoin forkHeight reorged (outpoint, entry)).get outpoint =
      roundOf forkHeight reorged entry (coins.get outpoint) := by
  unfold rollBackCoin roundOf
  split
  · simp
  · cases entry.status with
    | unspent =>
        rfl
    | spent txid hash =>
        cases hash with
        | none =>
            rfl
        | some hash =>
            dsimp only
            split
            · next listed =>
                simp [OutputSpendStatus.undone, listed]
            · rfl
    | mined hash =>
        dsimp only
        split
        · next listed =>
            simp [OutputSpendStatus.undone, listed]
        · rfl

theorem roundOf_stored :
    roundOf forkHeight reorged entry (some entry) =
      rolledBack forkHeight reorged entry := by
  unfold roundOf rolledBack
  split
  · rfl
  · rcases entry with ⟨outpoint, output⟩
    rcases output with ⟨height, tweak, amount, script, label, status⟩
    cases status with
    | unspent =>
        rfl
    | spent txid hash =>
        cases hash with
        | none =>
            rfl
        | some hash =>
            simp only [SpCoinEntry.status, OutputSpendStatus.undone]
            split
            · rfl
            · rfl
    | mined hash =>
        simp only [SpCoinEntry.status, OutputSpendStatus.undone]
        split
        · rfl
        · rfl

theorem get_rollBackCoin_other
    (other : outpoint ≠ query) :
    (coins.rollBackCoin forkHeight reorged (outpoint, entry)).get query =
      coins.get query := by
  unfold rollBackCoin
  split
  · simp [other]
  · split
    · split
      · simp [other]
      · rfl
    · split
      · simp [other]
      · rfl
    · rfl

theorem get_rollBack :
    (coins.rollBack forkHeight reorged).get query =
      (coins.get query).bind (rolledBack forkHeight reorged) := by
  have looked := BTreeMap.look_foldl_toList coins.store.cache
    (rollBackCoin forkHeight reorged) SpCoinStore.get
    (fun _ => roundOf forkHeight reorged)
    (fun coins outpoint entry _ =>
      get_rollBackCoin_same coins outpoint forkHeight reorged entry)
    (fun coins outpoint entry query _ =>
      get_rollBackCoin_other coins outpoint query forkHeight reorged entry)
    coins query
  refine looked.trans ?_
  change _ = (coins.store.cache[query]?).bind _
  cases stored : coins.store.cache[query]? with
  | none =>
      exact stored
  | some entry =>
      have found : coins.get query = some entry := stored
      dsimp only
      rw [found, roundOf_stored]
      rfl

theorem mem_spendingTxids (txid : Txid) :
    txid ∈ coins.spendingTxids ↔
      ∃ outpoint entry, coins.get outpoint = some entry ∧
        entry.status.spender = some txid := by
  have shape :
      coins.spendingTxids =
        coins.coins.filterMap (fun coin => coin.2.status.spender) := by
    unfold spendingTxids
    congr 1
    funext coin
    cases coin.2.status <;> rfl
  rw [shape, List.mem_filterMap]
  constructor
  · rintro ⟨⟨outpoint, entry⟩, listed, spends⟩
    exact ⟨outpoint, entry,
      Std.ExtTreeMap.mem_toList_iff_getElem?_eq_some.mp listed, spends⟩
  · rintro ⟨outpoint, entry, found, spends⟩
    exact ⟨(outpoint, entry),
      Std.ExtTreeMap.mem_toList_iff_getElem?_eq_some.mpr found, spends⟩

end SpCoinStore

namespace SpTxStore

variable (txs : SpTxStore) (txid query : Txid)

def Named (txs : SpTxStore) : Prop :=
  ∀ txid entry, txs.get txid = some entry → entry.txid = txid

@[simp] theorem get_insert (entry : SpTxEntry) :
    (txs.insert entry).get query =
      if entry.txid = query then some entry else txs.get query :=
  BTreeMap.getElem?_insert_eq ..

@[simp] theorem get_remove :
    (txs.remove txid).get query =
      if txid = query then none else txs.get query :=
  BTreeMap.getElem?_erase_eq ..

@[simp] theorem get_modify (change : SpTxEntry → SpTxEntry) :
    SpTxStore.get ⟨txs.store.modify txid change⟩ query =
      if txid = query then
        (txs.get query).map change
      else
        txs.get query :=
  RamStore.getElem?_cache_modify ..

@[simp] theorem get_updateHeight (height : Option Nat) :
    (txs.updateHeight txid height).get query =
      if txid = query then
        (txs.get query).map (fun entry => { entry with height := height })
      else
        txs.get query :=
  get_modify ..

@[simp] theorem get_updateTimestamp (timestamp : Nat) :
    (txs.updateTimestamp txid timestamp).get query =
      if txid = query then
        (txs.get query).map
          (fun entry => { entry with timestamp := some timestamp })
      else
        txs.get query :=
  get_modify ..

@[simp] theorem get_persist : txs.persist.get query = txs.get query := by
  simp only [persist, get, RamStore.get, RamStore.cache_flush]

/-- What a rollback leaves of a transaction. -/
def rolledBack
    (forkHeight : Nat)
    (pending : List Txid)
    (entry : SpTxEntry) : Option SpTxEntry :=
  if entry.height.all (fun height => height ≤ forkHeight) then
    some entry
  else if entry.txid ∉ pending then
    none
  else
    some { entry with height := none, timestamp := none }

theorem get_rollBack
    (named : txs.Named)
    (forkHeight : Nat)
    (pending : List Txid) :
    (txs.rollBack forkHeight pending).get query =
      (txs.get query).bind (rolledBack forkHeight pending) := by
  have same :
      ∀ (txs : SpTxStore) txid entry, entry.txid = txid →
        (txs.rollBackTx forkHeight pending (txid, entry)).get txid =
          if entry.height.all (fun height => height ≤ forkHeight) then
            txs.get txid
          else if entry.txid ∉ pending then
            none
          else
            (txs.get txid).map (fun stored =>
              { stored with height := none, timestamp := none }) := by
    intro txs txid entry own
    unfold rollBackTx
    split
    · rfl
    · split
      · simp [own]
      · simp [own]
  have other :
      ∀ (txs : SpTxStore) txid entry query, entry.txid = txid →
        txid ≠ query →
        (txs.rollBackTx forkHeight pending (txid, entry)).get query =
          txs.get query := by
    intro txs txid entry query own different
    unfold rollBackTx
    split
    · rfl
    · split
      · simp [own, different]
      · simp [own, different]
  have looked := BTreeMap.look_foldl_toList txs.store.cache
    (rollBackTx forkHeight pending) SpTxStore.get
    (fun _ entry stored =>
      if entry.height.all (fun height => height ≤ forkHeight) then
        stored
      else if entry.txid ∉ pending then
        none
      else
        stored.map (fun stored =>
          { stored with height := none, timestamp := none }))
    (fun state txid entry found => same state txid entry (named _ _ found))
    (fun state txid entry query found =>
      other state txid entry query (named _ _ found))
    txs query
  refine looked.trans ?_
  change _ = (txs.store.cache[query]?).bind _
  cases stored : txs.store.cache[query]? with
  | none =>
      exact stored
  | some entry =>
      have found : txs.get query = some entry := stored
      dsimp only
      rw [found, Option.bind_some, rolledBack, Option.map_some]

end SpTxStore

end Bwk
