import Bwk.CoinFolds

namespace Bwk

/-!
# The scan loop

`electrum/src/listener.rs`: what a scanner does with one Electrum connection.
It subscribes to the watched scripts, asks for the history of those whose
status moved, asks for the transactions a history names, and folds the answers
into the coin store.  Sending a request fails once the client is gone; the
listener then ends.
-/

/-- The hash the server summarises a script's history by. -/
abbrev Status := Nat

/-- What the listener asks of the server. -/
inductive CoinRequest where
  | subscribe (spks : List ScriptBuf)
  | history (spks : List ScriptBuf)
  | txs (txids : List Txid)
  deriving Repr, DecidableEq

/-- What is remembered of a subscribed script. -/
structure StatusEntry where
  status : Option Status
  keychain : KeyChain
  index : Nat
  deriving Repr, DecidableEq

/-- A listener with the stores it folds into. -/
structure Listener (Backend StatusRows : Type) where
  coins : CoinStore Backend
  statuses : RamStore StatusRows ScriptBuf StatusEntry
  /-- `false` once the client is gone. -/
  connected : Bool
  /-- Every request sent on this connection. -/
  sent : List CoinRequest

namespace CoinStore

variable {Backend : Type} [PersistenceBackend Backend Txid TxEntry]

/-- Queue the reported heights and commit the demotions. -/
def commitHistory
    (crate : TxCrate)
    (outcome : HistoryOutcome)
    (coins : CoinStore Backend) : CoinStore Backend :=
  let recorded := coins.recordReportedHeights outcome.reported
  if outcome.heightUpdated then
    { recorded with txStore := recorded.txStore.persist }.generate crate
  else
    recorded

/--
What folding a `History` message does to the coin store, all under one lock.
A listener that cannot ask for the missing transactions ends before it queues
the heights.
-/
def foldHistory
    (crate : TxCrate)
    (connected : Bool)
    (coins : CoinStore Backend)
    (hist : BTreeMap ScriptBuf History) : CoinStore Backend :=
  let (outcome, folded) := coins.handleHistoryResponse crate hist
  if outcome.missingTxs = [] ∨ connected then
    folded.commitHistory crate outcome
  else
    folded

section FoldHistory

variable {crate : TxCrate}

omit [PersistenceBackend Backend Txid TxEntry] in
theorem recordReportedHeights_eq
    (reported : List ClaimAt)
    (coins : CoinStore Backend) :
    coins.recordReportedHeights reported =
      { coins with
        pendingClaims :=
          (coins.recordReportedHeights reported).pendingClaims } := by
  induction reported generalizing coins with
  | nil =>
      rfl
  | cons claim rest inductionHypothesis =>
      have step :
          coins.recordReportedHeight claim =
            { coins with
              pendingClaims :=
                (coins.recordReportedHeight claim).pendingClaims } := by
        unfold recordReportedHeight
        split <;> rfl
      have unfolded :
          coins.recordReportedHeights (claim :: rest) =
            (coins.recordReportedHeight claim).recordReportedHeights rest :=
        rfl
      rw [unfolded, inductionHypothesis, step]

omit [PersistenceBackend Backend Txid TxEntry] in
@[simp] theorem txStore_recordReportedHeights
    (coins : CoinStore Backend)
    (reported : List ClaimAt) :
    (coins.recordReportedHeights reported).txStore = coins.txStore := by
  rw [recordReportedHeights_eq]

omit [PersistenceBackend Backend Txid TxEntry] in
@[simp] theorem updates_recordReportedHeights
    (coins : CoinStore Backend)
    (reported : List ClaimAt) :
    (coins.recordReportedHeights reported).updates = coins.updates := by
  rw [recordReportedHeights_eq]

omit [PersistenceBackend Backend Txid TxEntry] in
@[simp] theorem merkleInFlight_recordReportedHeights
    (coins : CoinStore Backend)
    (reported : List ClaimAt) :
    (coins.recordReportedHeights reported).merkleInFlight =
      coins.merkleInFlight := by
  rw [recordReportedHeights_eq]

theorem keyed_persist
    {txs : TxStore Backend}
    (keyed : txs.Keyed crate) : txs.persist.Keyed crate := by
  intro txid entry stored
  rw [TxStore.get_persist] at stored
  exact keyed txid entry stored

theorem commitHistory_same
    {coins : CoinStore Backend}
    (sound : coins.Sound crate)
    (outcome : HistoryOutcome) :
    (coins.commitHistory crate outcome).Sound crate ∧
      ∀ txid, kept (coins.commitHistory crate outcome).txStore txid =
        kept coins.txStore txid := by
  have recorded :
      (coins.recordReportedHeights outcome.reported).Sound crate :=
    ⟨by rw [txStore_recordReportedHeights]; exact sound.keyed,
      by rw [updates_recordReportedHeights]; exact sound.slots⟩
  unfold commitHistory
  dsimp only
  split
  · have persisted : CoinStore.Sound crate
        { coins.recordReportedHeights outcome.reported with
          txStore :=
            (coins.recordReportedHeights
              outcome.reported).txStore.persist } :=
      ⟨keyed_persist recorded.keyed, recorded.slots⟩
    refine ⟨persisted.generate, fun txid => ?_⟩
    rw [kept, bare_generate persisted.keyed]
    simp [kept]
  · exact ⟨recorded, fun txid => by rw [txStore_recordReportedHeights]⟩

theorem foldHistory_shrinks
    {coins : CoinStore Backend}
    (sound : coins.Sound crate)
    (connected : Bool)
    (hist : BTreeMap ScriptBuf History) :
    (coins.foldHistory crate connected hist).Sound crate ∧
      Shrinks coins.txStore
        (coins.foldHistory crate connected hist).txStore := by
  have folded := sound.handleHistoryResponse hist
  have shrinks := shrinks_handleHistoryResponse sound.keyed hist
  unfold foldHistory
  dsimp only
  split
  · obtain ⟨committed, same⟩ :=
      commitHistory_same folded
        (coins.handleHistoryResponse crate hist).1
    exact ⟨committed, shrinks.trans (fun txid => .inl (same txid))⟩
  · exact ⟨folded, shrinks⟩

end FoldHistory

end CoinStore

namespace Listener

variable {Backend StatusRows : Type}
variable [PersistenceBackend Backend Txid TxEntry]
variable [PersistenceBackend StatusRows ScriptBuf StatusEntry]

/-- Send a request, unless the client is gone. -/
def send
    (listener : Listener Backend StatusRows)
    (request : CoinRequest) : Bool × Listener Backend StatusRows :=
  if listener.connected then
    (true, { listener with sent := listener.sent ++ [request] })
  else
    (false, listener)

def withCoins
    (listener : Listener Backend StatusRows)
    (coins : CoinStore Backend) : Listener Backend StatusRows :=
  { listener with coins := coins }

/-- Fold one script's new status; `true` asks for its history. -/
def foldStatus
    (crate : TxCrate)
    (listener : Listener Backend StatusRows)
    (spk : ScriptBuf)
    (status : Option Status) :
    Bool × Bool × Listener Backend StatusRows :=
  match listener.statuses.get spk with
  | some known =>
      if known.status = status then
        (false, false, listener)
      else
        let cleared :=
          if status.isSome then
            listener
          else
            listener.withCoins
              ((listener.coins.handleHistoryResponse crate
                ((∅ : BTreeMap ScriptBuf History).insert spk [])).2.generate
                  crate)
        (status.isSome, true,
          { cleared with
            statuses :=
              listener.statuses.modify spk
                (fun entry => { entry with status := status }) })
  | none =>
      if status.isSome then
        (true, false, listener)
      else
        (false, false,
          listener.withCoins
            (listener.coins.handleHistoryResponse crate
              ((∅ : BTreeMap ScriptBuf History).insert spk [])).2)

/-- Fold the statuses one by one, collecting the histories to ask for. -/
def foldStatuses
    (crate : TxCrate)
    (listener : Listener Backend StatusRows) :
    List (ScriptBuf × Option Status) →
      List ScriptBuf × Bool × Listener Backend StatusRows
  | [] => ([], false, listener)
  | (spk, status) :: rest =>
      let (asks, dirty, folded) := listener.foldStatus crate spk status
      let (spks, later, after) := folded.foldStatuses crate rest
      (if asks then spk :: spks else spks, dirty || later, after)

/-- Write the statuses back; a failure is only logged. -/
def flushStatuses
    (listener : Listener Backend StatusRows) :
    Listener Backend StatusRows :=
  { listener with statuses := listener.statuses.flush.2 }

/-- Fold a `Status` response; `false` ends the listener. -/
def handleStatusResponse
    (crate : TxCrate)
    (listener : Listener Backend StatusRows)
    (reported : BTreeMap ScriptBuf (Option Status)) :
    Bool × Listener Backend StatusRows :=
  let (spks, dirty, folded) := listener.foldStatuses crate reported.toList
  let (asked, requested) :=
    if spks = [] then (true, folded) else folded.send (.history spks)
  if asked then
    (true, if dirty then requested.flushStatuses else requested)
  else
    (false, requested)

/-- Fold a `History` response; `false` ends the listener. -/
def handleHistoryResponseMsg
    (crate : TxCrate)
    (listener : Listener Backend StatusRows)
    (hist : BTreeMap ScriptBuf History) :
    Bool × Listener Backend StatusRows :=
  let (outcome, coins) := listener.coins.handleHistoryResponse crate hist
  let folded := listener.withCoins coins
  let (asked, requested) :=
    if outcome.missingTxs = [] then
      (true, folded)
    else
      folded.send (.txs outcome.missingTxs)
  if asked then
    (true, requested.withCoins (requested.coins.commitHistory crate outcome))
  else
    (false, requested)

theorem coins_handleHistoryResponseMsg
    (crate : TxCrate)
    (listener : Listener Backend StatusRows)
    (hist : BTreeMap ScriptBuf History) :
    (listener.handleHistoryResponseMsg crate hist).2.coins =
      listener.coins.foldHistory crate listener.connected hist := by
  simp only [handleHistoryResponseMsg, CoinStore.foldHistory, withCoins, send]
  by_cases none :
      (listener.coins.handleHistoryResponse crate hist).1.missingTxs = []
  · simp [none]
  · by_cases connection : listener.connected = true
    · simp [none, connection]
    · simp [none, connection]

/-- Fold a `Txs` response. -/
def handleTxsResponse
    (crate : TxCrate)
    (listener : Listener Backend StatusRows)
    (txs : List Transaction) : Listener Backend StatusRows :=
  listener.withCoins (listener.coins.handleTxsResponse crate txs)

/-- Ask again for the histories an unconfirmed transaction may be in. -/
def refreshUnconfirmedHistory
    (listener : Listener Backend StatusRows) :
    Listener Backend StatusRows :=
  let spks := listener.coins.spksWithUnconfirmedTxs
  if spks = [] then
    listener
  else
    (listener.send (.history spks)).2

def start
    (listener : Listener Backend StatusRows) :
    Listener Backend StatusRows :=
  let spks := listener.statuses.cache.keys
  let (subscribed, after) :=
    if spks = [] then (true, listener) else listener.send (.subscribe spks)
  if subscribed then after.refreshUnconfirmedHistory else after

end Listener

end Bwk
