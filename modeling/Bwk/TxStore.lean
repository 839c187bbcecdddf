import Bwk.RamStore
import Bwk.HeaderValidator

namespace Bwk

/-!
# The transaction store

`electrum/src/tx_store.rs`: the transactions a scan has met, each with how far
its confirmation has been established.  Hashing and weighing a transaction come
from the `bitcoin` crate and are parameters; a script or a transaction
identifier is only ever compared.
-/

/-- The hash that names a transaction. -/
abbrev Txid := Nat

/-- An output script, compared and never interpreted here. -/
abbrev ScriptBuf := Nat

/-- A reference to one output of a transaction. -/
structure OutPoint where
  txid : Txid
  vout : Nat
  deriving Repr, DecidableEq

instance : Ord OutPoint where
  compare := compareLex (compareOn OutPoint.txid) (compareOn OutPoint.vout)

instance : Std.TransOrd OutPoint :=
  inferInstanceAs (Std.TransCmp
    (compareLex (compareOn OutPoint.txid) (compareOn OutPoint.vout)))

instance : Std.LawfulEqOrd OutPoint where
  eq_of_compare := by
    intro left right same
    obtain ⟨sameTxid, sameVout⟩ := compareLex_eq_eq.mp same
    cases left
    cases right
    simp_all [compareOn]

/-- An input of a transaction. -/
structure TxIn where
  previousOutput : OutPoint
  scriptSig : ScriptBuf
  sequence : Nat
  witness : List Nat
  deriving Repr, DecidableEq

/-- An output of a transaction. -/
structure TxOut where
  value : Nat
  scriptPubkey : ScriptBuf
  deriving Repr, DecidableEq

structure Transaction where
  version : Nat
  lockTime : Nat
  input : List TxIn
  output : List TxOut
  deriving Repr, DecidableEq

/-- What the `bitcoin` crate supplies about transactions. -/
structure TxCrate where
  computeTxid : Transaction → Txid
  weight : Transaction → Nat

/-- A stand-in for the crate: the lock time names the transaction. -/
def TxCrate.sample : TxCrate where
  computeTxid tx := tx.lockTime
  weight _ := 0

/-- Confirmation state of a transaction. -/
inductive Inclusion where
  | unconfirmed
  | confirmedUnverified (height : Nat) (blockHash : BlockHash)
  | verified (height : Nat) (blockHash : BlockHash)
  | verifyFailed (height : Nat) (blockHash : BlockHash)
  deriving Repr, DecidableEq

/-- Block height, if confirmed; a failed proof is not trusted. -/
def Inclusion.height : Inclusion → Option Nat
  | .unconfirmed | .verifyFailed _ _ => none
  | .confirmedUnverified height _ | .verified height _ => some height

structure InputMetadata where
  value : Option Nat
  owned : Bool
  deriving Repr, DecidableEq

structure OutputMetadata where
  owned : Bool
  deriving Repr, DecidableEq

/-- A stored transaction. -/
structure TxEntry where
  tx : Transaction
  inclusion : Inclusion
  /-- By position, one for each input once the store has looked at them. -/
  inputs : List InputMetadata
  outputs : List OutputMetadata
  fees : Nat
  weight : Nat
  timestamp : Option Nat
  deriving Repr, DecidableEq

/-- A just-met entry: unconfirmed and without metadata. -/
def TxEntry.unconfirmed (crate : TxCrate) (tx : Transaction) : TxEntry where
  tx := tx
  inclusion := .unconfirmed
  inputs := []
  outputs := []
  fees := 0
  weight := crate.weight tx
  timestamp := none

def TxEntry.height (entry : TxEntry) : Option Nat :=
  entry.inclusion.height

/--
Replace the inclusion.  A transaction demoted to unconfirmed drops its stale
confirmation time.
-/
def TxEntry.withInclusion (entry : TxEntry) (inclusion : Inclusion) : TxEntry :=
  { entry with
    inclusion := inclusion
    timestamp :=
      if inclusion = .unconfirmed then none else entry.timestamp }

/-- The transactions one history response added to a script. -/
structure Update where
  spk : ScriptBuf
  txs : List (Txid × Option Transaction)
  deriving Repr, DecidableEq

/-- Every transaction has been received. -/
def Update.isComplete (update : Update) : Bool :=
  update.txs.all (fun slot => slot.2.isSome)

/-- The transactions still to be received. -/
def Update.missing (update : Update) : List Txid :=
  update.txs.filterMap
    (fun slot => if slot.2.isNone then some slot.1 else none)

/-- Transactions indexed by their identifiers. -/
structure TxStore (Backend : Type) where
  store : RamStore Backend Txid TxEntry

namespace TxStore

variable {Backend : Type}

def get (txs : TxStore Backend) (txid : Txid) : Option TxEntry :=
  txs.store.get txid

/-- Every entry with its identifier, in key order. -/
def iter (txs : TxStore Backend) : List (Txid × TxEntry) :=
  txs.store.cache.toList

/-- Every entry, in key order. -/
def transactions (txs : TxStore Backend) : List TxEntry :=
  txs.iter.map Prod.snd

/-- Store a transaction unless its identifier is taken. -/
def insertNew
    (crate : TxCrate)
    (txs : TxStore Backend)
    (slot : Txid × Option Transaction) : TxStore Backend :=
  match txs.get slot.1, slot.2 with
  | none, some tx =>
      ⟨txs.store.insert slot.1 (TxEntry.unconfirmed crate tx)⟩
  | _, _ => txs

def insertUpdate
    (crate : TxCrate)
    (txs : TxStore Backend)
    (update : Update) : TxStore Backend :=
  if update.isComplete then
    update.txs.foldl (insertNew crate) txs
  else
    txs

/-- Store or overwrite an entry under its transaction's identifier. -/
def update
    (crate : TxCrate)
    (txs : TxStore Backend)
    (entry : TxEntry) : TxStore Backend :=
  ⟨txs.store.insert (crate.computeTxid entry.tx) entry⟩

def innerGet (txs : TxStore Backend) (txid : Txid) : Option Transaction :=
  (txs.get txid).map TxEntry.tx

/-- Drop a transaction. -/
def remove (txs : TxStore Backend) (txid : Txid) : TxStore Backend :=
  ⟨txs.store.remove txid⟩

/-- Replace the inclusion of a stored transaction; a missing one stays so. -/
def updateInclusion
    (txs : TxStore Backend)
    (txid : Txid)
    (inclusion : Inclusion) : TxStore Backend :=
  ⟨txs.store.modify txid (TxEntry.withInclusion · inclusion)⟩

/-- Set the confirming block time of a stored transaction. -/
def updateTimestamp
    (txs : TxStore Backend)
    (txid : Txid)
    (timestamp : Nat) : TxStore Backend :=
  ⟨txs.store.modify txid
    (fun entry => { entry with timestamp := some timestamp })⟩

/-- Write the pending changes back; a failure is only logged. -/
def persist
    [PersistenceBackend Backend Txid TxEntry]
    (txs : TxStore Backend) : TxStore Backend :=
  ⟨txs.store.flush.2⟩

/-- How far the confirmation of a transaction has come, if it is stored. -/
def inclusionOf
    (txs : TxStore Backend)
    (txid : Txid) : Option Inclusion :=
  (txs.get txid).map TxEntry.inclusion

/-- Every entry is stored under the identifier of its transaction. -/
def Keyed (crate : TxCrate) (txs : TxStore Backend) : Prop :=
  ∀ txid entry, txs.get txid = some entry →
    crate.computeTxid entry.tx = txid

@[simp] theorem get_remove
    (txs : TxStore Backend)
    (txid query : Txid) :
    (txs.remove txid).get query =
      if txid = query then none else txs.get query := by
  simp [get, remove, RamStore.get]

@[simp] theorem get_update
    (crate : TxCrate)
    (txs : TxStore Backend)
    (entry : TxEntry)
    (query : Txid) :
    (txs.update crate entry).get query =
      if crate.computeTxid entry.tx = query then
        some entry
      else
        txs.get query := by
  simp [get, update, RamStore.get]

@[simp] theorem get_updateInclusion
    (txs : TxStore Backend)
    (txid query : Txid)
    (inclusion : Inclusion) :
    (txs.updateInclusion txid inclusion).get query =
      if txid = query then
        (txs.get query).map (TxEntry.withInclusion · inclusion)
      else
        txs.get query := by
  simp only [get, updateInclusion, RamStore.get,
    RamStore.getElem?_cache_modify]

@[simp] theorem get_updateTimestamp
    (txs : TxStore Backend)
    (txid query : Txid)
    (timestamp : Nat) :
    (txs.updateTimestamp txid timestamp).get query =
      if txid = query then
        (txs.get query).map
          (fun entry => { entry with timestamp := some timestamp })
      else
        txs.get query := by
  simp only [get, updateTimestamp, RamStore.get,
    RamStore.getElem?_cache_modify]

@[simp] theorem get_persist
    [PersistenceBackend Backend Txid TxEntry]
    (txs : TxStore Backend)
    (query : Txid) :
    txs.persist.get query = txs.get query := by
  simp [get, persist, RamStore.get]

@[simp] theorem inclusionOf_updateInclusion
    (txs : TxStore Backend)
    (txid query : Txid)
    (inclusion : Inclusion) :
    (txs.updateInclusion txid inclusion).inclusionOf query =
      if txid = query then
        (txs.inclusionOf query).map (fun _ => inclusion)
      else
        txs.inclusionOf query := by
  rw [inclusionOf, get_updateInclusion]
  split
  · simp [inclusionOf, Function.comp_def, TxEntry.withInclusion]
  · rfl

@[simp] theorem inclusionOf_updateTimestamp
    (txs : TxStore Backend)
    (txid query : Txid)
    (timestamp : Nat) :
    (txs.updateTimestamp txid timestamp).inclusionOf query =
      txs.inclusionOf query := by
  rw [inclusionOf, get_updateTimestamp]
  split
  · simp [inclusionOf, Function.comp_def]
  · rfl

@[simp] theorem inclusionOf_persist
    [PersistenceBackend Backend Txid TxEntry]
    (txs : TxStore Backend)
    (query : Txid) :
    txs.persist.inclusionOf query = txs.inclusionOf query := by
  simp [inclusionOf]

section Updates

variable {crate : TxCrate} {txs : TxStore Backend}
variable {txid : Txid} {entry : TxEntry}

theorem get_insertNew_of_some
    (slot : Txid × Option Transaction)
    (present : txs.get txid = some entry) :
    (txs.insertNew crate slot).get txid = some entry := by
  unfold insertNew
  split
  · rename_i tx free received
    have other : slot.1 ≠ txid := by
      intro same
      rw [same, present] at free
      cases free
    simpa [get, RamStore.get, other] using present
  · exact present

theorem get_insertNew_of_none
    {slot : Txid × Option Transaction}
    (absent : txs.get txid = none)
    (stored : (txs.insertNew crate slot).get txid = some entry) :
    ∃ tx, slot = (txid, some tx) ∧ entry = TxEntry.unconfirmed crate tx := by
  obtain ⟨name, received⟩ := slot
  unfold insertNew at stored
  split at stored
  · rename_i tx free isSome
    cases isSome
    by_cases same : name = txid
    · subst name
      have sameEntry : TxEntry.unconfirmed crate tx = entry := by
        simpa [get, RamStore.get] using stored
      exact ⟨tx, rfl, sameEntry.symm⟩
    · have kept : txs.get txid = some entry := by
        simpa [get, RamStore.get, same] using stored
      rw [absent] at kept
      cases kept
  · rw [absent] at stored
    cases stored

theorem get_insertSlots_of_some
    (slots : List (Txid × Option Transaction))
    (present : txs.get txid = some entry) :
    (slots.foldl (insertNew crate) txs).get txid = some entry := by
  induction slots generalizing txs with
  | nil =>
      exact present
  | cons slot rest inductionHypothesis =>
      exact inductionHypothesis (get_insertNew_of_some slot present)

theorem get_insertSlots_of_none
    {slots : List (Txid × Option Transaction)}
    (absent : txs.get txid = none)
    (stored : (slots.foldl (insertNew crate) txs).get txid = some entry) :
    ∃ tx, (txid, some tx) ∈ slots ∧
      entry = TxEntry.unconfirmed crate tx := by
  induction slots generalizing txs with
  | nil =>
      rw [List.foldl_nil, absent] at stored
      cases stored
  | cons slot rest inductionHypothesis =>
      cases next : (txs.insertNew crate slot).get txid with
      | none =>
          obtain ⟨tx, listed, fresh⟩ := inductionHypothesis next stored
          exact ⟨tx, List.mem_cons_of_mem _ listed, fresh⟩
      | some first =>
          obtain ⟨tx, rfl, rfl⟩ := get_insertNew_of_none absent next
          rw [List.foldl_cons, get_insertSlots_of_some rest next] at stored
          cases stored
          exact ⟨tx, List.mem_cons_self, rfl⟩

theorem get_insertUpdate_of_some
    (update : Update)
    (present : txs.get txid = some entry) :
    (txs.insertUpdate crate update).get txid = some entry := by
  unfold insertUpdate
  split
  · exact get_insertSlots_of_some update.txs present
  · exact present

theorem get_insertUpdate_of_none
    {update : Update}
    (absent : txs.get txid = none)
    (stored : (txs.insertUpdate crate update).get txid = some entry) :
    ∃ tx, (txid, some tx) ∈ update.txs ∧
      entry = TxEntry.unconfirmed crate tx := by
  unfold insertUpdate at stored
  split at stored
  · exact get_insertSlots_of_none absent stored
  · rw [absent] at stored
    cases stored

end Updates

end TxStore

end Bwk
