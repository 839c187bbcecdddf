import Bwk.CoinGenerate

namespace Bwk

/-!
# What a reconnect asks for again

The statuses of a script do not change across a restart while the queue of
claims is lost, so the listener asks again for the histories of the scripts
that an unconfirmed transaction pays.  A script that is only spent from is
asked for when another unconfirmed transaction happens to pay it.
-/

def Transaction.Pays (tx : Transaction) (spk : ScriptBuf) : Prop :=
  ∃ txout ∈ tx.output, txout.scriptPubkey = spk

def Transaction.SpendsFrom
    (outputOf : OutPoint → Option TxOut)
    (tx : Transaction)
    (spk : ScriptBuf) : Prop :=
  ∃ input ∈ tx.input, ∃ txout,
    outputOf input.previousOutput = some txout ∧ txout.scriptPubkey = spk

def Transaction.InHistoryOf
    (outputOf : OutPoint → Option TxOut)
    (tx : Transaction)
    (spk : ScriptBuf) : Prop :=
  tx.Pays spk ∨ tx.SpendsFrom outputOf spk

variable {Backend : Type} [PersistenceBackend Backend Txid TxEntry]
variable {crate : TxCrate}

namespace CoinStore

variable {coins : CoinStore Backend}

def PaidUnconfirmed
    (coins : CoinStore Backend)
    (spk : ScriptBuf) : Prop :=
  ∃ txid entry,
    coins.txStore.get txid = some entry ∧
      entry.inclusion = .unconfirmed ∧ entry.tx.Pays spk

theorem getElem?_store_generate
    (keyed : coins.txStore.Keyed crate)
    (outpoint : OutPoint)
    (coin : Coin) :
    (coins.generate crate).store[outpoint]? = some coin ↔
      ∃ entry address,
        (coins.generate crate).CoinOf outpoint entry address coin := by
  have sameMap :
      coins.coinMap crate = (coins.generate crate).coinMap crate :=
    (sameSources_generate keyed).symm.coinMap_eq keyed
      (keyed_generate keyed)
  rw [show (coins.generate crate).store = coins.coinMap crate from rfl,
    sameMap]
  exact getElem?_coinMap (keyed_generate keyed) outpoint coin

theorem mem_spksWithUnconfirmedTxs
    (keyed : coins.txStore.Keyed crate)
    (spk : ScriptBuf) :
    spk ∈ (coins.generate crate).spksWithUnconfirmedTxs ↔
      (coins.generate crate).addressStore.containsSpk spk = true ∧
        (coins.generate crate).PaidUnconfirmed spk := by
  have listed :
      spk ∈ (coins.generate crate).spksWithUnconfirmedTxs ↔
        ∃ (outpoint : OutPoint) (coin : Coin),
          (coins.generate crate).store[outpoint]? = some coin ∧
            (coins.generate crate).txStore.inclusionOf outpoint.txid =
                some .unconfirmed ∧
              coin.spk = spk := by
    rw [spksWithUnconfirmedTxs, Std.ExtTreeSet.mem_toList,
      Std.ExtTreeSet.mem_ofList, List.contains_iff_mem, List.mem_map]
    simp only [List.mem_filter, decide_eq_true_eq, Prod.exists,
      Std.ExtTreeMap.mem_toList_iff_getElem?_eq_some, and_assoc]
  rw [listed]
  constructor
  · rintro ⟨outpoint, coin, present, unconfirmed, rfl⟩
    obtain ⟨entry, address, is⟩ :=
      (getElem?_store_generate keyed outpoint coin).mp present
    rw [TxStore.inclusionOf, is.stored] at unconfirmed
    have watched :
        (coins.generate crate).addressStore.containsSpk coin.spk = true :=
      decide_eq_true
        (BTreeMap.mem_iff_getElem?.mpr ⟨address, is.known⟩)
    exact ⟨watched, outpoint.txid, entry, is.stored,
      Option.some.inj unconfirmed, coin.txout,
      List.mem_of_getElem? is.paid, rfl⟩
  · rintro ⟨watched, txid, entry, stored, unconfirmed, txout, paid, rfl⟩
    obtain ⟨vout, atVout⟩ := List.getElem?_of_mem paid
    have same := sameSources_generate keyed
    obtain ⟨before, storedBefore, sameTx, -⟩ := same.entry stored
    obtain ⟨address, known⟩ :=
      BTreeMap.mem_iff_getElem?.mp (of_decide_eq_true watched)
    have path := same.paths txout.scriptPubkey
    rw [AddressStore.getEntry, known, Option.map_some] at path
    obtain ⟨addressBefore, knownBefore, -⟩ :=
      Option.map_eq_some_iff.mp path.symm
    obtain ⟨coin, present, sameTxout, -⟩ :=
      (generate_exact crate coins keyed).received ⟨txid, vout⟩ before txout
        addressBefore storedBefore (sameTx ▸ atVout) knownBefore
    refine ⟨⟨txid, vout⟩, coin, present, ?_, ?_⟩
    · rw [TxStore.inclusionOf, stored, Option.map_some, unconfirmed]
    · rw [Coin.spk, sameTxout]

end CoinStore

namespace Listener

variable {StatusRows : Type}

/-- A reconnect asks for the history of the script. -/
def Refreshes
    (listener : Listener Backend StatusRows)
    (spk : ScriptBuf) : Prop :=
  ∃ spks,
    listener.refreshUnconfirmedHistory.sent =
        listener.sent ++ [.history spks] ∧
      spk ∈ spks

omit [PersistenceBackend Backend Txid TxEntry] in
theorem refreshes_iff
    {listener : Listener Backend StatusRows}
    (connected : listener.connected = true)
    (spk : ScriptBuf) :
    listener.Refreshes spk ↔
      spk ∈ listener.coins.spksWithUnconfirmedTxs := by
  unfold Refreshes refreshUnconfirmedHistory
  by_cases nothing : listener.coins.spksWithUnconfirmedTxs = []
  · simp [nothing]
  · simp [nothing, send, connected]

/--
A reconnect asks for a history an unconfirmed transaction is in exactly if the
transaction pays a watched script, or spends from one that an unconfirmed
transaction pays.
-/
theorem refresh_covers_iff
    (crate : TxCrate)
    (coins : CoinStore Backend)
    (keyed : coins.txStore.Keyed crate)
    (listener : Listener Backend StatusRows)
    (connected : listener.connected = true)
    (outputOf : OutPoint → Option TxOut)
    (txid : Txid)
    (entry : TxEntry)
    (stored : (coins.generate crate).txStore.get txid = some entry)
    (unconfirmed : entry.inclusion = .unconfirmed) :
    (∃ spk,
        (listener.withCoins (coins.generate crate)).Refreshes spk ∧
          (coins.generate crate).addressStore.containsSpk spk = true ∧
            entry.tx.InHistoryOf outputOf spk) ↔
      ∃ spk,
        (coins.generate crate).addressStore.containsSpk spk = true ∧
          (entry.tx.Pays spk ∨
            entry.tx.SpendsFrom outputOf spk ∧
              (coins.generate crate).PaidUnconfirmed spk) := by
  have asked (spk : ScriptBuf) :
      (listener.withCoins (coins.generate crate)).Refreshes spk ↔
        (coins.generate crate).addressStore.containsSpk spk = true ∧
          (coins.generate crate).PaidUnconfirmed spk := by
    have online :
        (listener.withCoins (coins.generate crate)).connected = true :=
      connected
    exact (refreshes_iff online spk).trans
      (CoinStore.mem_spksWithUnconfirmedTxs keyed spk)
  constructor
  · rintro ⟨spk, refreshed, watched, inHistory⟩
    have paid := ((asked spk).mp refreshed).2
    exact ⟨spk, watched,
      inHistory.imp_right (fun spends => ⟨spends, paid⟩)⟩
  · rintro ⟨spk, watched, pays | ⟨spends, paid⟩⟩
    · exact ⟨spk,
        (asked spk).mpr
          ⟨watched, txid, entry, stored, unconfirmed, pays⟩,
        watched, .inl pays⟩
    · exact ⟨spk, (asked spk).mpr ⟨watched, paid⟩, watched, .inr spends⟩

/-- A listener that has just come up. -/
def sampleOnline :
    Listener (RowBackend Txid TxEntry) (RowBackend ScriptBuf StatusEntry)
    where
  coins := CoinStore.chainedCoins
  statuses := RamStore.open_ ⟨∅, []⟩
  connected := true
  sent := []

/-- The outputs of the sample chain: a payment to script 0. -/
def sampleOutputs (outpoint : OutPoint) : Option TxOut :=
  if outpoint = ⟨1, 0⟩ then some ⟨5, 0⟩ else none

/-- A payment to a watched script is asked for again. -/
theorem refresh_covers_paid :
    ∃ spk,
      (sampleOnline.withCoins
          (CoinStore.chainedCoins.generate .sample)).Refreshes spk ∧
        (CoinStore.chainedCoins.generate .sample).addressStore.containsSpk
            spk = true ∧
          Transaction.InHistoryOf sampleOutputs ⟨2, 1, [], [⟨5, 0⟩]⟩ spk :=
  (refresh_covers_iff .sample CoinStore.chainedCoins
    CoinStore.keyed_chainedCoins sampleOnline rfl sampleOutputs 1
    { TxEntry.unconfirmed .sample ⟨2, 1, [], [⟨5, 0⟩]⟩ with
      outputs := [⟨true⟩] }
    (by decide +kernel) rfl).mpr
      ⟨0, by decide +kernel, .inl ⟨⟨5, 0⟩, by decide, rfl⟩⟩

/-- A confirmed payment and its spend to a foreign script. -/
def sweptCoins : CoinStore (RowBackend Txid TxEntry) :=
  { CoinStore.chainedCoins with
    txStore :=
      ⟨RamStore.open_
        { rows :=
            ((∅ : BTreeMap Txid TxEntry).insert 1
              ((TxEntry.unconfirmed .sample
                ⟨2, 1, [], [⟨5, 0⟩]⟩).withInclusion
                  (.verified 1 100))).insert 2
              (TxEntry.unconfirmed .sample
                ⟨2, 2, [⟨⟨1, 0⟩, 0, 0, []⟩], [⟨4, 99⟩]⟩)
          faults := [] }⟩ }

/-- The spend of the only coin to a foreign script is not asked for. -/
theorem sweep_not_refreshed :
    let after := sweptCoins.generate .sample
    let listener := sampleOnline.withCoins after
    (after.txStore.get 2).map
          (fun entry => (entry.tx, entry.inclusion)) =
        some (⟨2, 2, [⟨⟨1, 0⟩, 0, 0, []⟩], [⟨4, 99⟩]⟩, .unconfirmed) ∧
      after.addressStore.containsSpk 0 = true ∧
      Transaction.SpendsFrom sampleOutputs
        ⟨2, 2, [⟨⟨1, 0⟩, 0, 0, []⟩], [⟨4, 99⟩]⟩ 0 ∧
      ¬ ∃ spk, listener.Refreshes spk := by
  intro after listener
  have nothing : listener.refreshUnconfirmedHistory.sent = [] := by
    decide +kernel
  refine ⟨by decide +kernel, by decide +kernel, ?_, ?_⟩
  · exact ⟨⟨⟨1, 0⟩, 0, 0, []⟩, by decide, ⟨5, 0⟩, rfl, rfl⟩
  · rintro ⟨spk, spks, sent, -⟩
    rw [nothing] at sent
    simp [listener, sampleOnline, withCoins] at sent

end Listener

end Bwk
