import Bwk.ReconcilerSafety
import Bwk.TipRegistry

namespace Bwk

/-!
# A scanner and its watch window

`electrum/src/scanner.rs` and the part of `electrum/src/address_store.rs` that
talks to others: a scanner opens its stores with the tips it finds there, its
address store tells the listener how far to watch and persists its tips, and
the listener takes the tips and the server's responses in any order.
-/

/-- What the address store reports through: the channel to the listener, once
there is one, and the account store. -/
structure TipLink (TipRows : Type) where
  listening : Bool
  tips : List AddressTip
  account : RamStore TipRows String Nat

def tipRow : KeyChain → String
  | .receive => "receive_index"
  | .change => "change_index"

section Link

variable {TipRows : Type} [PersistenceBackend TipRows String Nat]

/-- Write both tips to the account store. -/
def persistTip
    (account : RamStore TipRows String Nat)
    (receive change : Nat) : RamStore TipRows String Nat :=
  (account.insert (tipRow .receive) receive).insert (tipRow .change) change

def tipFromAccountStore
    (account : RamStore TipRows String Nat)
    (keychain : KeyChain) : Nat :=
  (account.get (tipRow keychain)).getD 0

namespace TipLink

/-- Tell the listener the watch tips and persist the generated ones. -/
def updateWatchTip
    (addresses : AddressStore)
    (link : TipLink TipRows) : TipLink TipRows where
  listening := link.listening
  tips :=
    if link.listening then
      link.tips ++ [⟨addresses.recvWatchTip, addresses.changeWatchTip⟩]
    else
      link.tips
  account :=
    (persistTip link.account addresses.recvGeneratedTip
      addresses.changeGeneratedTip).flush.2

def recvCoinAt
    (addresses : AddressStore)
    (link : TipLink TipRows)
    (spk : ScriptBuf) : TipLink TipRows :=
  if (addresses.located spk).isSome then
    link.updateWatchTip (addresses.recvCoinAt spk)
  else
    link

def recvCoinsAt
    (addresses : AddressStore)
    (link : TipLink TipRows) :
    List ScriptBuf → TipLink TipRows
  | [] => link
  | spk :: later =>
      recvCoinsAt (addresses.recvCoinAt spk) (link.recvCoinAt addresses spk)
        later

end TipLink

def AddressStore.withAccountStore
    (derivator : SpkDerivator)
    (recvTip changeTip lookAhead : Nat)
    (account : RamStore TipRows String Nat) :
    AddressStore × TipLink TipRows :=
  let addresses :=
    AddressStore.populateMaybe
      { derivator := derivator
        store := ∅
        recvGeneratedTip := recvTip
        changeGeneratedTip := changeTip
        lookAhead := lookAhead
        derived := by simp }
  (addresses, TipLink.updateWatchTip addresses ⟨false, [], account⟩)

end Link

/-- Whether every write reaches a backend. -/
class ReliableBackend
    (Backend : Type)
    {Key Value : Type}
    [Ord Key]
    [PersistenceBackend Backend Key Value] : Prop where
  ok :
    ∀ (backend : Backend) inserts removed,
      (PersistenceBackend.flushBatch backend inserts removed).1 = .ok ()

/-- A scanner: the listener with its stores, and how the address store reports
to it. -/
structure Scanner (Backend StatusRows TipRows : Type) where
  listener : Listener Backend StatusRows
  link : TipLink TipRows

/-- What the listener takes next. -/
inductive ScanEvent where
  /-- The tip at a place of the channel. -/
  | addressTip (place : Nat)
  | status (reported : BTreeMap ScriptBuf (Option Status))
  | history (hist : BTreeMap ScriptBuf History)
  | txs (txs : List Transaction)

namespace Scanner

variable {Backend StatusRows TipRows : Type}
variable [PersistenceBackend Backend Txid TxEntry]
variable [PersistenceBackend StatusRows ScriptBuf StatusEntry]
variable [PersistenceBackend TipRows String Nat]

def addresses (scanner : Scanner Backend StatusRows TipRows) : AddressStore :=
  scanner.listener.coins.addressStore

/-- The highest registered index of a keychain. -/
def maxTipFromStatuses
    (statuses : RamStore StatusRows ScriptBuf StatusEntry)
    (keychain : KeyChain) : Nat :=
  (statuses.cache.toList.filter
    (fun row => row.2.keychain = keychain)).foldl
      (fun highest row => max highest row.2.index) 0

/-- The tip a scanner opens a keychain with: the persisted one, or what the
statuses show to be watched less the look-ahead. -/
def openedTip
    (lookAhead : Nat)
    (statuses : RamStore StatusRows ScriptBuf StatusEntry)
    (account : RamStore TipRows String Nat)
    (keychain : KeyChain) : Nat :=
  max (tipFromAccountStore account keychain)
    (maxTipFromStatuses statuses keychain - lookAhead)

section Crate

variable (crate : TxCrate)

def fromStores
    (derivator : SpkDerivator)
    (lookAhead : Nat)
    (txs : TxStore Backend)
    (labels : BTreeMap OutPoint String)
    (headerScanner : Bool)
    (statuses : RamStore StatusRows ScriptBuf StatusEntry)
    (account : RamStore TipRows String Nat) :
    Scanner Backend StatusRows TipRows :=
  let opened :=
    AddressStore.withAccountStore derivator
      (openedTip lookAhead statuses account .receive)
      (openedTip lookAhead statuses account .change)
      lookAhead account
  { listener :=
      { coins :=
          (CoinStore.new opened.1 txs labels headerScanner).generate crate
        statuses := statuses
        connected := false
        sent := [] }
    link := opened.2 }

/-- Connect a scanner: its listener starts and its address store tells it the
tips. -/
def start
    (scanner : Scanner Backend StatusRows TipRows) :
    Scanner Backend StatusRows TipRows :=
  let watched := scanner.addresses.populateMaybe
  { listener :=
      ({ scanner.listener with connected := true }.withCoins
        { scanner.listener.coins with addressStore := watched }).start
    link := { scanner.link with listening := true }.updateWatchTip watched }

/-- A scanner opened again over the rows a scanner left, of which some of the
tips may have been lost. -/
def reopen
    (derivator : SpkDerivator)
    (lookAhead : Nat)
    (scanner : Scanner Backend StatusRows TipRows)
    (loss : TipRows → TipRows) : Scanner Backend StatusRows TipRows :=
  let coins := scanner.listener.coins
  fromStores crate derivator lookAhead
    ⟨RamStore.open_ coins.txStore.store.backend⟩ coins.labels
    coins.headerScanner (RamStore.open_ scanner.listener.statuses.backend)
    (RamStore.open_ (loss scanner.link.account.backend))

def clearedBy
    (listener : Listener Backend StatusRows)
    (spk : ScriptBuf)
    (status : Option Status) : List ScriptBuf :=
  match listener.statuses.get spk with
  | some known =>
      if known.status ≠ status ∧ status.isNone then [spk] else []
  | none => if status.isNone then [spk] else []

/-- What the address store tells while statuses are folded. -/
def linkStatuses
    (listener : Listener Backend StatusRows)
    (link : TipLink TipRows) :
    List (ScriptBuf × Option Status) → TipLink TipRows
  | [] => link
  | (spk, status) :: later =>
      linkStatuses (listener.foldStatus crate spk status).2.2
        (link.recvCoinsAt listener.coins.addressStore
          (clearedBy listener spk status))
        later

def handle
    (derivator : SpkDerivator)
    (scanner : Scanner Backend StatusRows TipRows) :
    ScanEvent → Scanner Backend StatusRows TipRows
  | .addressTip place =>
      match scanner.link.tips[place]? with
      | none => scanner
      | some tip =>
          { listener := (scanner.listener.handleAddressTip derivator tip).2
            link :=
              { scanner.link with
                tips := scanner.link.tips.eraseIdx place } }
  | .status reported =>
      { listener := (scanner.listener.handleStatusResponse crate reported).2
        link :=
          linkStatuses crate scanner.listener scanner.link reported.toList }
  | .history hist =>
      { listener := (scanner.listener.handleHistoryResponseMsg crate hist).2
        link :=
          scanner.link.recvCoinsAt scanner.addresses
            (hist.toList.map Prod.fst) }
  | .txs txs =>
      { scanner with listener := scanner.listener.handleTxsResponse crate txs }

end Crate

end Scanner

def subscribedSpks (sent : List CoinRequest) : List ScriptBuf :=
  sent.flatMap (fun request =>
    match request with
    | .subscribe spks => spks
    | _ => [])

/-- The scripts whose history was asked for in some requests. -/
def requestedSpks (sent : List CoinRequest) : List ScriptBuf :=
  sent.flatMap (fun request =>
    match request with
    | .history spks => spks
    | _ => [])

@[simp] theorem subscribedSpks_append
    (sent more : List CoinRequest) :
    subscribedSpks (sent ++ more) =
      subscribedSpks sent ++ subscribedSpks more :=
  List.flatMap_append

@[simp] theorem requestedSpks_append
    (sent more : List CoinRequest) :
    requestedSpks (sent ++ more) =
      requestedSpks sent ++ requestedSpks more :=
  List.flatMap_append

@[simp] theorem subscribedSpks_subscribe (spks : List ScriptBuf) :
    subscribedSpks [.subscribe spks] = spks := by
  simp [subscribedSpks]

@[simp] theorem requestedSpks_subscribe (spks : List ScriptBuf) :
    requestedSpks [.subscribe spks] = [] := by
  simp [requestedSpks]

@[simp] theorem subscribedSpks_history (spks : List ScriptBuf) :
    subscribedSpks [.history spks] = [] := by
  simp [subscribedSpks]

@[simp] theorem requestedSpks_history (spks : List ScriptBuf) :
    requestedSpks [.history spks] = spks := by
  simp [requestedSpks]

@[simp] theorem subscribedSpks_txs (txids : List Txid) :
    subscribedSpks [.txs txids] = [] := by
  simp [subscribedSpks]

@[simp] theorem requestedSpks_txs (txids : List Txid) :
    requestedSpks [.txs txids] = [] := by
  simp [requestedSpks]

/-- A scanner, with the scripts whose status and whose history it has been
given on this connection. -/
structure Session (Backend StatusRows TipRows : Type) where
  scanner : Scanner Backend StatusRows TipRows
  answered : List ScriptBuf
  folded : List ScriptBuf

def UsedSpk
    (derivator : SpkDerivator)
    (used : KeyChain → Finset Nat)
    (spk : ScriptBuf) : Prop :=
  ∃ account, ∃ index ∈ used account, spk = derivator.scriptAt account index

/-- Consecutive used indices, and the first one from the start, are no further
apart than the look-ahead. -/
structure WithinGap (lookAhead : Nat) (used : Finset Nat) : Prop where
  first :
    ∀ index ∈ used, (∀ other ∈ used, index ≤ other) → index ≤ lookAhead
  next :
    ∀ index ∈ used, ∀ following ∈ used, index < following →
      (∀ other ∈ used, other ≤ index ∨ following ≤ other) →
      following ≤ index + lookAhead

namespace Session

variable {Backend StatusRows TipRows : Type}
variable [PersistenceBackend Backend Txid TxEntry]
variable [PersistenceBackend StatusRows ScriptBuf StatusEntry]
variable [PersistenceBackend TipRows String Nat]

def connect
    (scanner : Scanner Backend StatusRows TipRows) :
    Session Backend StatusRows TipRows where
  scanner := scanner.start
  answered := []
  folded := []

def sent (session : Session Backend StatusRows TipRows) : List CoinRequest :=
  session.scanner.listener.sent

def statuses (session : Session Backend StatusRows TipRows) :
    RamStore StatusRows ScriptBuf StatusEntry :=
  session.scanner.listener.statuses

def tips (session : Session Backend StatusRows TipRows) : List AddressTip :=
  session.scanner.link.tips

/-- What can be taken next: any tip of the channel, statuses of subscribed
scripts, histories that were asked for, and any transactions. -/
def Allowed
    (derivator : SpkDerivator)
    (used : KeyChain → Finset Nat)
    (session : Session Backend StatusRows TipRows) : ScanEvent → Prop
  | .addressTip place => place < session.tips.length
  | .status reported =>
      ∀ row ∈ reported.toList,
        row.1 ∈ subscribedSpks session.sent ∧
          (row.2.isSome = true ↔ UsedSpk derivator used row.1)
  | .history hist =>
      ∀ row ∈ hist.toList, row.1 ∈ requestedSpks session.sent
  | .txs _ => True

def take
    (crate : TxCrate)
    (derivator : SpkDerivator)
    (session : Session Backend StatusRows TipRows)
    (event : ScanEvent) : Session Backend StatusRows TipRows where
  scanner := session.scanner.handle crate derivator event
  answered :=
    match event with
    | .status reported => session.answered ++ reported.toList.map Prod.fst
    | _ => session.answered
  folded :=
    match event with
    | .history hist => session.folded ++ hist.toList.map Prod.fst
    | _ => session.folded

/-- A run of events, each allowed where it is taken. -/
inductive Run
    (crate : TxCrate)
    (derivator : SpkDerivator)
    (used : KeyChain → Finset Nat) :
    Session Backend StatusRows TipRows →
      Session Backend StatusRows TipRows → Prop where
  | refl (session) : Run crate derivator used session session
  | step
      {first last : Session Backend StatusRows TipRows}
      {event : ScanEvent}
      (run : Run crate derivator used first last)
      (allowed : last.Allowed derivator used event) :
      Run crate derivator used first (last.take crate derivator event)

/-- Every tip was taken, every subscription was answered and every history that
was asked for was given. -/
structure Settled (session : Session Backend StatusRows TipRows) : Prop where
  tips : session.tips = []
  answered : ∀ spk ∈ subscribedSpks session.sent, spk ∈ session.answered
  folded : ∀ spk ∈ requestedSpks session.sent, spk ∈ session.folded

end Session

end Bwk
