import Bwk.CoinView
import Bwk.GapLimit

namespace Bwk

/-!
# Runs of the scan loop keep the view current

Every message either leaves what the coins are computed from, or ends by
recomputing them, except a history that only drops stored transactions.
-/

namespace ScanLoop

variable {Backend StatusRows Raw : Type}
variable [PersistenceBackend Backend Txid TxEntry]
variable [PersistenceBackend StatusRows ScriptBuf StatusEntry]
variable [LawfulBackend Backend] [ReliableBackend Backend]
variable {crate : TxCrate} {btc : Bitcoin Raw} {derivator : SpkDerivator}
variable {loop : ScanLoop Backend StatusRows}

omit [PersistenceBackend StatusRows ScriptBuf StatusEntry] in
theorem current_confirmReported
    (current : loop.listener.coins.Current crate)
    (headers : ServerHeaders) :
    (loop.confirmReported crate btc headers).2.listener.coins.Current
      crate := by
  obtain ⟨changed, told, confirms⟩ :=
    @CoinStore.confirms_confirmHeights _ _ crate _ btc
      loop.listener.coins.pendingClaimHeights
      ⟨loop.listener.coins, headers, [], false⟩
  rw [Bool.false_or] at told
  have committed := current.commitConfirmed (told ▸ confirms)
  unfold confirmReported
  dsimp only
  split
  · exact committed
  · split
    · exact committed
    · exact committed

omit [PersistenceBackend StatusRows ScriptBuf StatusEntry] in
theorem current_confirmOnServer
    (current : loop.listener.coins.Current crate) :
    (loop.confirmOnServer crate btc).2.listener.coins.Current crate := by
  unfold confirmOnServer
  split
  · exact current
  · exact current_confirmReported current _

omit [PersistenceBackend StatusRows ScriptBuf StatusEntry]
  [LawfulBackend Backend] [ReliableBackend Backend] in
/-- A history is folded completely when what is missing could be asked for. -/
theorem complete_handleHistoryResponseMsg
    {listener : Listener Backend StatusRows}
    {hist : BTreeMap ScriptBuf History}
    (goesOn :
      (listener.handleHistoryResponseMsg crate hist).1 = true) :
    (listener.coins.handleHistoryResponse crate hist).1.missingTxs = [] ∨
      listener.connected = true := by
  by_cases asked :
      (listener.coins.handleHistoryResponse crate hist).1.missingTxs = []
  · exact Or.inl asked
  · refine Or.inr ?_
    by_contra gone
    simp [Listener.handleHistoryResponseMsg, Listener.send, Listener.withCoins,
      asked, gone] at goesOn

theorem current_handle
    (current : loop.listener.coins.Current crate)
    {message : ScanMessage}
    (complete : (loop.handle crate btc derivator message).1 = true)
    (clean : loop.Clean message) :
    (loop.handle crate btc derivator message).2.listener.coins.Current
      crate := by
  cases message with
  | addressTip tip =>
      show (loop.listener.handleAddressTip derivator tip).2.coins.Current crate
      rw [Listener.coins_handleAddressTip]
      exact current
  | status reported =>
      show (loop.listener.handleStatusResponse crate
        reported).2.coins.Current crate
      rw [Listener.coins_handleStatusResponse]
      exact Listener.current_foldStatuses current
        (BTreeMap.nodup_toList reported) clean
  | history hist =>
      simp only [handle] at complete ⊢
      split at complete
      · rename_i goesOn
        rw [if_pos goesOn]
        refine current_confirmOnServer ?_
        show (loop.listener.handleHistoryResponseMsg crate
          hist).2.coins.Current crate
        rw [Listener.coins_handleHistoryResponseMsg]
        exact current.foldHistory
          (complete_handleHistoryResponseMsg goesOn) clean
      · cases complete
  | txs txs =>
      exact current_confirmOnServer (current.handleTxsResponse txs)
  | headers landed =>
      simp only [handle]
      split
      · exact current
      · exact current_confirmReported current _
  | txMerkle txid height =>
      exact current
  | error headerHeight =>
      simp only [handle]
      split
      · exact current
      · exact current

theorem CleanRun.current
    {first last : ScanLoop Backend StatusRows}
    (run : CleanRun crate btc derivator first last)
    (current : first.listener.coins.Current crate) :
    last.listener.coins.Current crate := by
  induction run with
  | refl =>
      exact current
  | step _ complete clean inductionHypothesis =>
      exact current_handle inductionHypothesis complete clean

section Start

variable {TipRows : Type} [PersistenceBackend TipRows String Nat]

omit [LawfulBackend Backend] [ReliableBackend Backend]
  [PersistenceBackend StatusRows ScriptBuf StatusEntry] in
theorem current_start
    {scanner : Scanner Backend StatusRows TipRows}
    (current : scanner.listener.coins.Current crate) :
    (start scanner).listener.coins.Current crate := by
  have watched :
      { scanner.listener.coins with
        addressStore := scanner.addresses.populateMaybe } =
        scanner.listener.coins := by
    have same :
        scanner.addresses.populateMaybe =
          scanner.listener.coins.addressStore :=
      AddressStore.populateMaybe_of_populated current.populated
    rw [same]
  have kept :
      (start scanner).listener.coins =
        { scanner.listener.coins with
          addressStore := scanner.addresses.populateMaybe } := by
    have refreshed :
        ∀ listener : Listener Backend StatusRows,
          listener.refreshUnconfirmedHistory.coins = listener.coins := by
      intro listener
      unfold Listener.refreshUnconfirmedHistory
      dsimp only
      split
      · rfl
      · exact Listener.coins_send _ _
    simp only [start, Scanner.start, Listener.start]
    split
    · split
      · rw [refreshed]
        rfl
      · rfl
    · split
      · rw [refreshed, Listener.coins_send]
        rfl
      · rw [Listener.coins_send]
        rfl
  rw [kept, watched]
  exact current

omit [PersistenceBackend StatusRows ScriptBuf StatusEntry] in
theorem current_fromStores
    (derivator : SpkDerivator)
    (lookAhead : Nat)
    {txs : TxStore Backend}
    (keyed : txs.Keyed crate)
    (coherent : txs.store.Coherent)
    (labels : BTreeMap OutPoint String)
    (headerScanner : Bool)
    (statuses : RamStore StatusRows ScriptBuf StatusEntry)
    (account : RamStore TipRows String Nat) :
    (Scanner.fromStores crate derivator lookAhead txs labels headerScanner
      statuses account).listener.coins.Current crate := by
  refine CoinStore.current_generate ⟨keyed, fun _ listed => nomatch listed⟩
    coherent ?_
  exact (AddressStore.populateMaybe_spec _).2

end Start

/-- A scanner opens with coins that are what `generate` would give and with
its transactions flushed, and a run of messages leaves it so as long as no
history drops a stored transaction without moving a height or a watch tip and
no empty status drops one of an unregistered script. -/
theorem coin_view_current
    (crate : TxCrate)
    (btc : Bitcoin Raw)
    (derivator : SpkDerivator)
    {TipRows : Type}
    [PersistenceBackend TipRows String Nat] :
    (∀ (lookAhead : Nat) (rows : Backend)
        (labels : BTreeMap OutPoint String) (headerScanner : Bool)
        (statuses : RamStore StatusRows ScriptBuf StatusEntry)
        (account : RamStore TipRows String Nat),
        TxStore.Keyed crate ⟨RamStore.open_ rows⟩ →
          (start (Scanner.fromStores crate derivator lookAhead
            ⟨RamStore.open_ rows⟩ labels headerScanner statuses
              account)).listener.coins.Current crate) ∧
      ∀ first last : ScanLoop Backend StatusRows,
        CleanRun crate btc derivator first last →
          first.listener.coins.Current crate →
            last.listener.coins.Current crate :=
  ⟨fun lookAhead rows labels headerScanner statuses account keyed =>
      current_start (current_fromStores derivator lookAhead keyed
        (RamStore.coherent_open rows) labels headerScanner statuses account),
    fun _ _ run current => run.current current⟩

end ScanLoop

namespace ViewSample

/-- It pays the first receive script. -/
def tx : Transaction := ⟨2, 1, [], [⟨5000, 0⟩]⟩

/-- A wallet that holds nothing yet, connected. -/
def opened :
    ScanLoop (MapBackend Txid TxEntry) (MapBackend ScriptBuf StatusEntry) :=
  ScanLoop.start
    (Scanner.fromStores TxCrate.sample GapSample.derivator 0
      ⟨RamStore.open_ ⟨∅⟩⟩ ∅ true (RamStore.open_ GapSample.statusRows)
      (RamStore.open_ GapSample.tipRows))

/-- The history of the first script. -/
def reported (history : History) : ScanMessage :=
  .history ((∅ : BTreeMap ScriptBuf History).insert 0 history)

def handled
    (loop :
      ScanLoop (MapBackend Txid TxEntry)
        (MapBackend ScriptBuf StatusEntry))
    (message : ScanMessage) :
    Bool ×
      ScanLoop (MapBackend Txid TxEntry)
        (MapBackend ScriptBuf StatusEntry) :=
  loop.handle TxCrate.sample Bitcoin.sample GapSample.derivator message

/-- The transaction is reported and received. -/
def paid :
    ScanLoop (MapBackend Txid TxEntry) (MapBackend ScriptBuf StatusEntry) :=
  (handled (handled opened (reported [(1, none)])).2 (.txs [tx])).2

/-- The history of a script that only loses its transaction leaves the coin in
the view and the transaction on the disk. -/
theorem removal_stays_in_view :
    let after := (handled paid (reported [])).2.listener.coins
    (handled paid (reported [])).1 = true ∧
      after.txStore.get 1 = none ∧
      (⟨1, 0⟩ : OutPoint) ∈ after.store ∧
      (⟨1, 0⟩ : OutPoint) ∉ after.coinMap TxCrate.sample ∧
      1 ∈ PersistenceBackend.rows after.txStore.store.backend := by
  decide +kernel

end ViewSample

open ViewSample in
/-- A payment that is reported and received is in a current view. -/
theorem coin_view_current_paid :
    paid.listener.coins.Current TxCrate.sample := by
  have current :=
    @ScanLoop.coin_view_current (MapBackend Txid TxEntry)
      (MapBackend ScriptBuf StatusEntry) _ _ _ _ _ TxCrate.sample
      Bitcoin.sample GapSample.derivator (MapBackend String Nat) _
  have start : opened.listener.coins.Current TxCrate.sample :=
    current.1 0 ⟨∅⟩ ∅ true (RamStore.open_ GapSample.statusRows)
      (RamStore.open_ GapSample.tipRows)
      (fun txid entry stored => by
        simp [TxStore.get, RamStore.get, RamStore.open_,
          PersistenceBackend.rows] at stored)
  have run :
      ScanLoop.CleanRun TxCrate.sample Bitcoin.sample GapSample.derivator
        opened paid := by
    refine .step (.step (.refl opened) (by decide +kernel) ?_)
      (by decide +kernel) trivial
    refine Or.inr (Or.inr ?_)
    rintro row _ ⟨txid, _, listed, _⟩
    have nothing : opened.listener.coins.latest row.1 = ∅ := by
      simp [CoinStore.latest, SpkHistory.last, SpkHistory.new,
        show opened.listener.coins.spkHistory = ∅ from rfl]
    rw [nothing] at listed
    simp at listed
  exact current.2 opened paid run start

end Bwk
