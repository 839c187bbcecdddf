import Bwk.CoinGenerate
import Bwk.CoinGhosts
import Bwk.GapDiscovery

namespace Bwk

/-!
# Every message of the scan loop

The loop of `electrum/src/listener.rs` over all it receives.  A scan without a
header scanner also asks its connection for the headers its claims wait on, and
confirms the claims in the blocks the server names.
-/

/-- What the loop takes from its channels. -/
inductive ScanMessage where
  | addressTip (tip : AddressTip)
  | status (reported : BTreeMap ScriptBuf (Option Status))
  | history (hist : BTreeMap ScriptBuf History)
  | txs (txs : List Transaction)
  | headers (landed : BTreeMap Nat Header)
  /-- Nothing here asks for a proof. -/
  | txMerkle (txid : Txid) (height : Nat)
  /-- With the height of the header a failed fetch or decoding was about. -/
  | error (headerHeight : Option Nat)

/-- Headers the connection returned, by height; `none` while the request is in
flight. -/
abbrev ServerHeaders := BTreeMap Nat (Option Header)

structure ScanLoop (Backend StatusRows : Type) where
  listener : Listener Backend StatusRows
  /-- Only without a header scanner. -/
  serverHeaders : Option ServerHeaders
  /-- Every request for headers sent on this connection. -/
  headerRequests : List (List Nat)

/-- A pass over the heights of the pending claims on its way. -/
structure ConfirmPass (Backend : Type) where
  coins : CoinStore Backend
  headers : ServerHeaders
  missing : List Nat
  changed : Bool

namespace ScanLoop

variable {Backend StatusRows Raw : Type}
variable [PersistenceBackend Backend Txid TxEntry]
variable [PersistenceBackend StatusRows ScriptBuf StatusEntry]

section

variable (crate : TxCrate)
variable (btc : Bitcoin Raw)

omit [PersistenceBackend Backend Txid TxEntry] in
/-- Confirm the claims at one height, or note that its header is missing. -/
def confirmHeight
    (pass : ConfirmPass Backend)
    (height : Nat) : ConfirmPass Backend :=
  match pass.headers[height]? with
  | some (some header) =>
      let (changed, coins) :=
        pass.coins.confirmPendingClaims btc height header
      { pass with coins := coins, changed := pass.changed || changed }
  | some none => pass
  | none =>
      { pass with
        headers := pass.headers.insert height none
        missing := pass.missing ++ [height] }

/-- Write the confirmed transactions back and recompute the coins. -/
def commitConfirmed (pass : ConfirmPass Backend) : CoinStore Backend :=
  if pass.changed then
    { pass.coins with txStore := pass.coins.txStore.persist }.generate crate
  else
    pass.coins

/-- Confirm every pending claim whose header the connection returned, and ask
it for the heights it has not; `false` ends the listener. -/
def confirmReported
    (loop : ScanLoop Backend StatusRows)
    (headers : ServerHeaders) : Bool × ScanLoop Backend StatusRows :=
  let pass :=
    loop.listener.coins.pendingClaimHeights.foldl (confirmHeight btc)
      ⟨loop.listener.coins, headers, [], false⟩
  let confirmed :=
    { loop with
      listener := loop.listener.withCoins (commitConfirmed crate pass)
      serverHeaders := some pass.headers }
  if pass.missing = [] then
    (true, confirmed)
  else if loop.listener.connected then
    (true,
      { confirmed with
        headerRequests := confirmed.headerRequests ++ [pass.missing] })
  else
    (false, confirmed)

/-- Confirm on the server's headers, without a header scanner. -/
def confirmOnServer
    (loop : ScanLoop Backend StatusRows) :
    Bool × ScanLoop Backend StatusRows :=
  match loop.serverHeaders with
  | none => (true, loop)
  | some headers => loop.confirmReported crate btc headers

def withListener
    (loop : ScanLoop Backend StatusRows)
    (listener : Listener Backend StatusRows) :
    ScanLoop Backend StatusRows :=
  { loop with listener := listener }

/-- Handle one message; `false` ends the listener. -/
def handle
    (derivator : SpkDerivator)
    (loop : ScanLoop Backend StatusRows) :
    ScanMessage → Bool × ScanLoop Backend StatusRows
  | .addressTip tip =>
      let (goesOn, listener) := loop.listener.handleAddressTip derivator tip
      (goesOn, loop.withListener listener)
  | .status reported =>
      let (goesOn, listener) :=
        loop.listener.handleStatusResponse crate reported
      (goesOn, loop.withListener listener)
  | .history hist =>
      let (goesOn, listener) :=
        loop.listener.handleHistoryResponseMsg crate hist
      if goesOn then
        (loop.withListener listener).confirmOnServer crate btc
      else
        (false, loop.withListener listener)
  | .txs txs =>
      (loop.withListener
        (loop.listener.handleTxsResponse crate txs)).confirmOnServer crate btc
  | .headers landed =>
      match loop.serverHeaders with
      | none => (true, loop)
      | some headers =>
          loop.confirmReported crate btc
            (headers.insertAll
              (landed.toList.map (fun row => (row.1, some row.2))))
  | .txMerkle _ _ => (true, loop)
  | .error headerHeight =>
      match loop.serverHeaders, headerHeight with
      | some headers, some height =>
          (true, { loop with serverHeaders := some (headers.erase height) })
      | _, _ => (true, loop)

end

def start
    {TipRows : Type}
    [PersistenceBackend TipRows String Nat]
    (scanner : Scanner Backend StatusRows TipRows) :
    ScanLoop Backend StatusRows where
  listener := scanner.start.listener
  serverHeaders :=
    if scanner.listener.coins.headerScanner then none else some ∅
  headerRequests := []

end ScanLoop

/-- The last history of the script lists a stored transaction that the new one
does not. -/
def CoinStore.Drops
    {Backend : Type}
    (coins : CoinStore Backend)
    (spk : ScriptBuf)
    (history : History) : Prop :=
  ∃ txid,
    coins.txStore.get txid ≠ none ∧
      txid ∈ coins.latest spk ∧
      txid ∉ (∅ : HistoryMap).insertAll history

/-- A transaction is at another height than in the script's last history. -/
def CoinStore.MovesHeight
    {Backend : Type}
    (coins : CoinStore Backend)
    (spk : ScriptBuf)
    (history : History) : Prop :=
  ∃ (txid : Txid) (before now : Option Nat),
    (coins.latest spk)[txid]? = some before ∧
      ((∅ : HistoryMap).insertAll history)[txid]? = some now ∧
      now ≠ before

def AddressStore.MovesTip
    (addresses : AddressStore)
    (spks : List ScriptBuf) : Prop :=
  (addresses.recvCoinsAt spks).recvWatchTip ≠ addresses.recvWatchTip ∨
    (addresses.recvCoinsAt spks).changeWatchTip ≠ addresses.changeWatchTip

namespace ScanLoop

variable {Backend StatusRows Raw : Type}

/-- A message that drops no stored transaction without a reason to recompute
the coins. -/
def Clean (loop : ScanLoop Backend StatusRows) : ScanMessage → Prop
  | .history hist =>
      (∃ row ∈ hist.toList,
        loop.listener.coins.MovesHeight row.1 row.2) ∨
      loop.listener.coins.addressStore.MovesTip (hist.toList.map Prod.fst) ∨
      ∀ row ∈ hist.toList, ¬ loop.listener.coins.Drops row.1 row.2
  | .status reported =>
      ∀ row ∈ reported.toList, row.2 = none →
        loop.listener.statuses.get row.1 = none →
          ¬ loop.listener.coins.Drops row.1 []
  | _ => True

variable [PersistenceBackend Backend Txid TxEntry]
variable [PersistenceBackend StatusRows ScriptBuf StatusEntry]

/-- Runs of messages, each handled completely and each clean where it
arrives. -/
inductive CleanRun
    (crate : TxCrate)
    (btc : Bitcoin Raw)
    (derivator : SpkDerivator) :
    ScanLoop Backend StatusRows → ScanLoop Backend StatusRows → Prop where
  | refl (loop) : CleanRun crate btc derivator loop loop
  | step
      {first last : ScanLoop Backend StatusRows}
      {message : ScanMessage}
      (run : CleanRun crate btc derivator first last)
      (complete : (last.handle crate btc derivator message).1 = true)
      (clean : last.Clean message) :
      CleanRun crate btc derivator first
        (last.handle crate btc derivator message).2

end ScanLoop

end Bwk
