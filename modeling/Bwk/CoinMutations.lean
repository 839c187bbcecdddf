import Bwk.CoinGenerate

namespace Bwk

/-!
# Changes of the stores

Whatever drives a scan changes the stored transactions and the watched scripts
by a few operations, and recomputes the coins by `generate`.  Nothing else
writes the coin map, and nothing else writes the usage of an address.
-/

/-- A change of the stores the coins are computed from. -/
inductive StoreMutation where
  /-- A new transaction is stored as unconfirmed. -/
  | addTx (tx : Transaction)
  | updateTx (entry : TxEntry)
  | removeTx (txid : Txid)
  /-- A transaction is demoted or promoted. -/
  | updateInclusion (txid : Txid) (inclusion : Inclusion)
  | updateTimestamp (txid : Txid) (timestamp : Nat)
  | persistTxs
  /-- Addresses are generated up to an index. -/
  | updateTip (account : KeyChain) (index : Nat)
  /-- Addresses are generated for a script the server reported on. -/
  | recvCoinAt (spk : ScriptBuf)
  | setLabels (labels : BTreeMap OutPoint String)

/-- What happens to a coin store. -/
inductive StoreStep where
  | mutate (mutation : StoreMutation)
  | generate

namespace AddressStore

/-- Every watched script is as it was, or watched for the first time. -/
def Generates (before after : AddressStore) : Prop :=
  ∀ spk,
    after.getEntry spk = before.getEntry spk ∨
      before.getEntry spk = none ∧
        ∃ account index,
          after.getEntry spk = some (AddressEntry.fresh account index)

namespace Generates

theorem refl (addresses : AddressStore) : Generates addresses addresses :=
  fun _ => .inl rfl

theorem trans
    {first second third : AddressStore}
    (generates : Generates first second)
    (generates' : Generates second third) : Generates first third := by
  intro spk
  rcases generates spk with same | ⟨new, account, index, fresh⟩
  · rw [← same]
    exact generates' spk
  · rcases generates' spk with same | ⟨absent, -⟩
    · exact .inr ⟨new, account, index, same.trans fresh⟩
    · rw [fresh] at absent
      cases absent

end Generates

variable (account : KeyChain) (addresses : AddressStore)

theorem generates_watch
    (index : Nat) :
    Generates addresses (watch account addresses index) := by
  intro spk
  unfold watch
  split
  · exact .inl rfl
  · rename_i absent
    rw [getEntry, getEntry, BTreeMap.getElem?_insert_eq]
    split
    · rename_i here
      rw [here] at absent
      exact .inr
        ⟨BTreeMap.not_mem_iff_getElem?.mp absent, account, index, rfl⟩
    · exact .inl rfl

theorem generates_watches
    (indices : List Nat)
    (addresses : AddressStore) :
    Generates addresses (indices.foldl (watch account) addresses) := by
  induction indices generalizing addresses with
  | nil =>
      exact .refl addresses
  | cons index rest inductionHypothesis =>
      exact (generates_watch account addresses index).trans
        (inductionHypothesis _)

theorem generates_populateMaybe (addresses : AddressStore) :
    Generates addresses addresses.populateMaybe :=
  (generates_watches .receive _ addresses).trans
    (generates_watches .change _ _)

theorem generates_updateTip
    (account : KeyChain)
    (index : Nat) :
    Generates addresses (addresses.updateTip account index) := by
  cases account with
  | receive =>
      exact generates_populateMaybe
        { addresses with
          recvGeneratedTip := max addresses.recvGeneratedTip index }
  | change =>
      exact generates_populateMaybe
        { addresses with
          changeGeneratedTip := max addresses.changeGeneratedTip index }

theorem generates_recvCoinAt
    (spk : ScriptBuf) :
    Generates addresses (addresses.recvCoinAt spk) := by
  rw [recvCoinAt_eq]
  cases addresses.located spk with
  | none =>
      exact .refl addresses
  | some place =>
      exact generates_updateTip addresses place.1 place.2

end AddressStore

namespace CoinStore

variable {Backend : Type} [PersistenceBackend Backend Txid TxEntry]

/-- Apply a change. -/
def mutate
    (crate : TxCrate)
    (coins : CoinStore Backend) : StoreMutation → CoinStore Backend
  | .addTx tx =>
      { coins with
        txStore :=
          coins.txStore.insertNew crate (crate.computeTxid tx, some tx) }
  | .updateTx entry =>
      { coins with txStore := coins.txStore.update crate entry }
  | .removeTx txid =>
      { coins with txStore := coins.txStore.remove txid }
  | .updateInclusion txid inclusion =>
      { coins with txStore := coins.txStore.updateInclusion txid inclusion }
  | .updateTimestamp txid timestamp =>
      { coins with txStore := coins.txStore.updateTimestamp txid timestamp }
  | .persistTxs =>
      { coins with txStore := coins.txStore.persist }
  | .updateTip account index =>
      { coins with
        addressStore := coins.addressStore.updateTip account index }
  | .recvCoinAt spk =>
      { coins with addressStore := coins.addressStore.recvCoinAt spk }
  | .setLabels labels =>
      { coins with labels := labels }

def storeStep
    (crate : TxCrate)
    (coins : CoinStore Backend) : StoreStep → CoinStore Backend
  | .mutate mutation => coins.mutate crate mutation
  | .generate => coins.generate crate

/-- Take the steps one after the other. -/
def storeRun
    (crate : TxCrate)
    (coins : CoinStore Backend)
    (steps : List StoreStep) : CoinStore Backend :=
  steps.foldl (storeStep crate) coins

variable {crate : TxCrate} {coins : CoinStore Backend}

@[simp] theorem storeRun_nil : coins.storeRun crate [] = coins :=
  rfl

theorem storeRun_concat
    (steps : List StoreStep)
    (next : StoreStep) :
    coins.storeRun crate (steps ++ [next]) =
      (coins.storeRun crate steps).storeStep crate next := by
  simp [storeRun]

variable (mutation : StoreMutation)

/-- A change leaves the coin map to the next `generate`. -/
@[simp] theorem store_mutate :
    (coins.mutate crate mutation).store = coins.store := by
  cases mutation <;> rfl

/-- A change sends nothing. -/
@[simp] theorem events_mutate :
    (coins.mutate crate mutation).events = coins.events := by
  cases mutation <;> rfl

/-- A change never counts as a first `generate`. -/
@[simp] theorem generated_mutate :
    (coins.mutate crate mutation).generated = coins.generated := by
  cases mutation <;> rfl

theorem generates_mutate :
    AddressStore.Generates coins.addressStore
      (coins.mutate crate mutation).addressStore := by
  cases mutation with
  | updateTip account index =>
      exact AddressStore.generates_updateTip _ account index
  | recvCoinAt spk =>
      exact AddressStore.generates_recvCoinAt _ spk
  | _ =>
      exact .refl _

theorem keyed_mutate
    (keyed : coins.txStore.Keyed crate)
    (mutation : StoreMutation) :
    (coins.mutate crate mutation).txStore.Keyed crate := by
  cases mutation with
  | addTx tx =>
      intro txid entry stored
      cases before : coins.txStore.get txid with
      | some old =>
          rw [mutate, TxStore.get_insertNew_of_some _ before] at stored
          exact keyed txid entry (before.trans stored)
      | none =>
          obtain ⟨sent, same, rfl⟩ :=
            TxStore.get_insertNew_of_none before stored
          cases same
          rfl
  | updateTx entry =>
      intro txid stored found
      rw [mutate, TxStore.get_update] at found
      split at found
      · rename_i here
        cases found
        exact here
      · exact keyed txid stored found
  | removeTx dropped =>
      intro txid entry stored
      rw [mutate, TxStore.get_remove] at stored
      split at stored
      · cases stored
      · exact keyed txid entry stored
  | updateInclusion moved inclusion =>
      intro txid entry stored
      rw [mutate, TxStore.get_updateInclusion] at stored
      split at stored
      · obtain ⟨before, found, rfl⟩ := Option.map_eq_some_iff.mp stored
        exact keyed txid before found
      · exact keyed txid entry stored
  | updateTimestamp stamped timestamp =>
      intro txid entry stored
      rw [mutate, TxStore.get_updateTimestamp] at stored
      split at stored
      · obtain ⟨before, found, rfl⟩ := Option.map_eq_some_iff.mp stored
        exact keyed txid before found
      · exact keyed txid entry stored
  | persistTxs =>
      exact keyed_persist keyed
  | updateTip account index =>
      exact keyed
  | recvCoinAt spk =>
      exact keyed
  | setLabels labels =>
      exact keyed

theorem keyed_storeRun
    (keyed : coins.txStore.Keyed crate)
    (steps : List StoreStep) :
    (coins.storeRun crate steps).txStore.Keyed crate := by
  induction steps generalizing coins with
  | nil =>
      exact keyed
  | cons step rest inductionHypothesis =>
      refine inductionHypothesis ?_
      cases step with
      | mutate mutation =>
          exact keyed_mutate keyed mutation
      | generate =>
          exact keyed_generate keyed

end CoinStore

end Bwk
