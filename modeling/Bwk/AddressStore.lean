import Bwk.TxStore

namespace Bwk

/-!
# The address store

`electrum/src/address_store.rs`: the scripts derived from the account's
descriptor, up to a look-ahead past the last index known to be used on each
keychain.  Deriving a script comes from the descriptor and is a parameter.
-/

/-- The two chains of scripts an account derives. -/
inductive KeyChain where
  | receive
  | change
  deriving Repr, DecidableEq

/-- The scripts of an account. -/
structure SpkDerivator where
  receiveAt : Nat → ScriptBuf
  changeAt : Nat → ScriptBuf

def SpkDerivator.scriptAt
    (derivator : SpkDerivator) :
    KeyChain → Nat → ScriptBuf
  | .receive => derivator.receiveAt
  | .change => derivator.changeAt

/-- How often an address received. -/
inductive AddressStatus where
  | notUsed
  | used
  | reused
  deriving Repr, DecidableEq

/-- A watched script. -/
structure AddressEntry where
  status : AddressStatus
  account : KeyChain
  index : Nat
  fundingTxids : BTreeSet Txid
  spendingTxids : BTreeSet Txid

/-- An address nothing was received on yet. -/
def AddressEntry.fresh (account : KeyChain) (index : Nat) : AddressEntry where
  status := .notUsed
  account := account
  index := index
  fundingTxids := ∅
  spendingTxids := ∅

/-- The watched scripts, each derived from its keychain and index. -/
structure AddressStore where
  derivator : SpkDerivator
  store : BTreeMap ScriptBuf AddressEntry
  recvGeneratedTip : Nat
  changeGeneratedTip : Nat
  lookAhead : Nat
  derived :
    ∀ spk entry, store[spk]? = some entry →
      derivator.scriptAt entry.account entry.index = spk

namespace AddressStore

/-- Scripts past the generated tip are located up to this far. -/
def recoverGap : Nat := 10000

/-- The last watched receive index. -/
def recvWatchTip (addresses : AddressStore) : Nat :=
  addresses.recvGeneratedTip + addresses.lookAhead + 1

def changeWatchTip (addresses : AddressStore) : Nat :=
  addresses.changeGeneratedTip + addresses.lookAhead + 1

def getEntry (addresses : AddressStore) (spk : ScriptBuf) :
    Option AddressEntry :=
  addresses.store[spk]?

def containsSpk (addresses : AddressStore) (spk : ScriptBuf) : Bool :=
  spk ∈ addresses.store

/-- Watch the script of a keychain at an index, unless it already is. -/
def watch
    (account : KeyChain)
    (addresses : AddressStore)
    (index : Nat) : AddressStore :=
  if present :
      addresses.derivator.scriptAt account index ∈ addresses.store then
    addresses
  else
    { addresses with
      store :=
        addresses.store.insert (addresses.derivator.scriptAt account index)
          (AddressEntry.fresh account index)
      derived := by
        intro spk entry stored
        rw [BTreeMap.getElem?_insert_eq] at stored
        split at stored
        · rename_i same
          cases stored
          exact same
        · exact addresses.derived spk entry stored }

/-- Watch every script up to both watch tips. -/
def populateMaybe (addresses : AddressStore) : AddressStore :=
  let received :=
    (List.range (addresses.recvWatchTip + 1)).foldl (watch .receive) addresses
  (List.range (addresses.changeWatchTip + 1)).foldl (watch .change) received

/-- Move the receive tip up to `index`. -/
def updateRecv (addresses : AddressStore) (index : Nat) : AddressStore :=
  populateMaybe
    { addresses with
      recvGeneratedTip := max addresses.recvGeneratedTip index }

/-- Move the change tip up to `index`. -/
def updateChange (addresses : AddressStore) (index : Nat) : AddressStore :=
  populateMaybe
    { addresses with
      changeGeneratedTip := max addresses.changeGeneratedTip index }

/-- Move a keychain's tip up to `index`. -/
def updateTip (addresses : AddressStore) :
    KeyChain → Nat → AddressStore
  | .receive => addresses.updateRecv
  | .change => addresses.updateChange

/-- Find a script past the watched ones by deriving on. -/
def locateSpk (addresses : AddressStore) (spk : ScriptBuf) :
    Option (KeyChain × Nat) :=
  let past (account : KeyChain) (tip : Nat) : Option (KeyChain × Nat) :=
    ((List.range' (tip + 1) (recoverGap + 1)).find?
      (fun index => addresses.derivator.scriptAt account index = spk)).map
        (fun index => (account, index))
  (past .receive addresses.recvWatchTip).or
    (past .change addresses.changeWatchTip)

/-- Grow the watched window for a script the server reported on. -/
def recvCoinAt (addresses : AddressStore) (spk : ScriptBuf) : AddressStore :=
  match addresses.getEntry spk with
  | some entry => addresses.updateTip entry.account entry.index
  | none =>
      match addresses.locateSpk spk with
      | some (account, index) => addresses.updateTip account index
      | none => addresses

/-- Record how a watched script was used. -/
def setUsage
    (addresses : AddressStore)
    (spk : ScriptBuf)
    (status : AddressStatus)
    (fundingTxids spendingTxids : BTreeSet Txid) : AddressStore :=
  match present : addresses.store[spk]? with
  | none => addresses
  | some entry =>
      { addresses with
        store :=
          addresses.store.insert spk
            { entry with
              status := status
              fundingTxids := fundingTxids
              spendingTxids := spendingTxids }
        derived := by
          intro query stored found
          rw [BTreeMap.getElem?_insert_eq] at found
          split at found
          · rename_i same
            cases found
            exact same ▸ addresses.derived spk entry present
          · exact addresses.derived query stored found }

/-- A small store for evaluating the model: even scripts receive. -/
def sample : AddressStore :=
  populateMaybe
    { derivator := ⟨fun index => 2 * index, fun index => 2 * index + 1⟩
      store := ∅
      recvGeneratedTip := 0
      changeGeneratedTip := 0
      lookAhead := 0
      derived := by simp }

end AddressStore

end Bwk
