import Bwk.ScanLoop
import Bwk.CoinPasses

namespace Bwk

/-!
# The coin view is current

The coins are recomputed by `generate`, and only where a handler calls it.
Between two messages they are what it would give, and the stored transactions
are flushed, in every run in which no history drops a stored transaction
without moving a height or a watch tip.
-/

section Coherence

variable {Backend Key Value : Type} [Ord Key] [Std.TransOrd Key]
variable [Std.LawfulEqOrd Key] [DecidableEq Key]
variable [PersistenceBackend Backend Key Value]

variable {store : RamStore Backend Key Value}

theorem RamStore.Coherent.modify
    (coherent : store.Coherent)
    (key : Key)
    (change : Value → Value) :
    (store.modify key change).Coherent := by
  unfold RamStore.modify
  split
  · exact coherent
  · exact coherent.insert _ _

theorem Flushed.remove_absent
    (flushed : Flushed store)
    {key : Key}
    (absent : store.get key = none) :
    Flushed (store.remove key) where
  coherent := flushed.coherent.remove key
  rows := by
    have same : store.cache.erase key = store.cache := by
      refine Std.ExtTreeMap.ext_getElem? (fun query => ?_)
      rw [BTreeMap.getElem?_erase_eq]
      split
      · rename_i here
        rw [← here]
        exact absent.symm
      · rfl
    rw [RamStore.cache_remove, same]
    exact flushed.rows

end Coherence

namespace TxStore

variable {Backend : Type} [PersistenceBackend Backend Txid TxEntry]
variable {txs : TxStore Backend}

theorem coherent_foldl
    {Item : Type}
    {step : TxStore Backend → Item → TxStore Backend}
    (keeps :
      ∀ txs item, txs.store.Coherent → (step txs item).store.Coherent)
    (items : List Item)
    (coherent : txs.store.Coherent) :
    (items.foldl step txs).store.Coherent := by
  induction items generalizing txs with
  | nil =>
      exact coherent
  | cons item rest inductionHypothesis =>
      exact inductionHypothesis (keeps txs item coherent)

theorem coherent_insertUpdate
    (coherent : txs.store.Coherent)
    (crate : TxCrate)
    (update : Update) :
    (txs.insertUpdate crate update).store.Coherent := by
  unfold insertUpdate
  split
  · refine coherent_foldl (fun txs slot coherent => ?_) update.txs coherent
    unfold insertNew
    split
    · exact RamStore.Coherent.insert coherent _ _
    · exact coherent
  · exact coherent

theorem coherent_insertUpdates
    (coherent : txs.store.Coherent)
    (crate : TxCrate)
    (updates : List Update) :
    (updates.foldl (insertUpdate crate) txs).store.Coherent :=
  coherent_foldl
    (fun _ update coherent => coherent_insertUpdate coherent crate update)
    updates coherent

end TxStore

namespace AddressStore

variable {addresses : AddressStore}

theorem watches_of_present
    (account : KeyChain)
    (indices : List Nat)
    (present :
      ∀ index ∈ indices,
        addresses.derivator.scriptAt account index ∈ addresses.store) :
    indices.foldl (watch account) addresses = addresses := by
  induction indices with
  | nil =>
      rfl
  | cons index rest inductionHypothesis =>
      have unchanged : watch account addresses index = addresses := by
        rw [watch, dif_pos (present index List.mem_cons_self)]
      rw [List.foldl_cons, unchanged]
      exact inductionHypothesis
        (fun other member => present other (List.mem_cons_of_mem _ member))

theorem populateMaybe_of_populated
    (populated : addresses.Populated) :
    addresses.populateMaybe = addresses := by
  unfold populateMaybe
  dsimp only
  rw [watches_of_present .receive, watches_of_present .change]
  · intro index member
    exact populated .change index
      (Nat.le_of_lt_succ (List.mem_range.mp member))
  · intro index member
    exact populated .receive index
      (Nat.le_of_lt_succ (List.mem_range.mp member))

theorem recvCoinAt_of_still
    (populated : addresses.Populated)
    (spk : ScriptBuf)
    (still :
      ∀ account,
        (addresses.recvCoinAt spk).generatedTip account ≤
          addresses.generatedTip account) :
    addresses.recvCoinAt spk = addresses := by
  rw [recvCoinAt_eq] at still ⊢
  cases found : addresses.located spk with
  | none =>
      rfl
  | some place =>
      obtain ⟨account, index⟩ := place
      rw [found] at still
      have tip := still account
      dsimp only at tip ⊢
      rw [(addresses.updateTip_spec account index).2.2.1, if_pos rfl] at tip
      have within : max (addresses.generatedTip account) index =
          addresses.generatedTip account :=
        Nat.le_antisymm tip (Nat.le_max_left _ _)
      cases account with
      | receive =>
          have same :
              { addresses with
                recvGeneratedTip :=
                  max addresses.recvGeneratedTip index } = addresses := by
            rw [show max addresses.recvGeneratedTip index =
              addresses.recvGeneratedTip from within]
          rw [updateTip, updateRecv, same]
          exact populateMaybe_of_populated populated
      | change =>
          have same :
              { addresses with
                changeGeneratedTip :=
                  max addresses.changeGeneratedTip index } = addresses := by
            rw [show max addresses.changeGeneratedTip index =
              addresses.changeGeneratedTip from within]
          rw [updateTip, updateChange, same]
          exact populateMaybe_of_populated populated

theorem recvCoinsAt_of_still
    (populated : addresses.Populated)
    (spks : List ScriptBuf)
    (still : ¬ addresses.MovesTip spks) :
    addresses.recvCoinsAt spks = addresses := by
  have tips :
      ∀ account,
        (addresses.recvCoinsAt spks).generatedTip account ≤
          addresses.generatedTip account := by
    intro account
    have advances := addresses.advances_recvCoinsAt spks
    have same :
        (addresses.recvCoinsAt spks).watchTip account =
          addresses.watchTip account := by
      rw [MovesTip, not_or, not_not, not_not] at still
      cases account with
      | receive =>
          exact still.1
      | change =>
          exact still.2
    rw [watchTip_eq, watchTip_eq, advances.lookAhead] at same
    omega
  clear still
  induction spks with
  | nil =>
      rfl
  | cons spk rest inductionHypothesis =>
      have here : addresses.recvCoinAt spk = addresses := by
        refine recvCoinAt_of_still populated spk (fun account => ?_)
        exact Nat.le_trans
          ((advances_recvCoinsAt (addresses.recvCoinAt spk) rest).generatedTip
            account)
          (tips account)
      have unfolded :
          addresses.recvCoinsAt (spk :: rest) = addresses.recvCoinsAt rest := by
        rw [recvCoinsAt, List.foldl_cons, here, recvCoinsAt]
      rw [unfolded] at tips ⊢
      exact inductionHypothesis tips

end AddressStore

theorem SpkHistory.mem_changed
    (spk : SpkHistory)
    (reported : History)
    (txid : Txid) :
    txid ∈ (spk.insert reported).1.changed ↔
      ∃ before now : Option Nat,
        spk.last[txid]? = some before ∧
          ((∅ : HistoryMap).insertAll reported)[txid]? = some now ∧
          now ≠ before := by
  unfold insert
  dsimp only
  split
  · rename_i noneBefore
    rw [Std.ExtTreeMap.isEmpty_iff.mp noneBefore]
    split <;> simp
  · rw [BTreeMap.mem_iff_getElem?]
    simp only [BTreeMap.getElem?_retain, Option.filter_eq_some_iff,
      Option.any_eq_true, decide_eq_true_eq]
    constructor
    · rintro ⟨now, found, before, listed, differs⟩
      exact ⟨before, now, listed, found, differs⟩
    · rintro ⟨before, now, listed, found, differs⟩
      exact ⟨now, found, before, listed, differs⟩

namespace CoinStore

variable {Backend : Type} [PersistenceBackend Backend Txid TxEntry]
variable {crate : TxCrate} {coins : CoinStore Backend}

theorem coherent_updateSpkHistory
    (coherent : coins.txStore.store.Coherent)
    (spk : ScriptBuf)
    (history : History) :
    (coins.updateSpkHistory spk history).2.txStore.store.Coherent := by
  simp only [updateSpkHistory]
  rw [dropClaims_eq]
  dsimp only
  refine TxStore.coherent_foldl
    (fun _ txid coherent => RamStore.Coherent.modify coherent txid _) _ ?_
  exact TxStore.coherent_foldl
    (fun _ txid coherent => RamStore.Coherent.remove coherent txid) _ coherent

theorem coherent_updateHistories
    (coherent : coins.txStore.store.Coherent)
    (hist : List (ScriptBuf × History)) :
    (coins.updateHistories hist).2.txStore.store.Coherent := by
  induction hist generalizing coins with
  | nil =>
      exact coherent
  | cons row rest inductionHypothesis =>
      have watched :
          ({ coins with
              addressStore :=
                coins.addressStore.recvCoinAt row.1 } :
            CoinStore Backend).txStore.store.Coherent :=
        coherent
      exact inductionHypothesis
        (coherent_updateSpkHistory watched row.1 row.2)

theorem coherent_populateTxMetadata
    (coherent : coins.txStore.store.Coherent) :
    (coins.populateTxMetadata crate).txStore.store.Coherent := by
  unfold populateTxMetadata
  dsimp only
  refine TxStore.coherent_foldl (fun txs entry coherent => ?_) _ coherent
  split
  · exact RamStore.Coherent.insert coherent _ _
  · exact coherent

omit [PersistenceBackend Backend Txid TxEntry] in
theorem updateSpkHistory_frame
    (coins : CoinStore Backend)
    (spk : ScriptBuf)
    (history : History) :
    (coins.updateSpkHistory spk history).2.store = coins.store ∧
      (coins.updateSpkHistory spk history).2.labels = coins.labels ∧
      (coins.updateSpkHistory spk history).2.headerScanner =
        coins.headerScanner := by
  simp only [updateSpkHistory]
  rw [dropClaims_eq]
  exact ⟨rfl, rfl, rfl⟩

omit [PersistenceBackend Backend Txid TxEntry] in
theorem updateHistories_frame
    (coins : CoinStore Backend)
    (hist : List (ScriptBuf × History)) :
    (coins.updateHistories hist).2.store = coins.store ∧
      (coins.updateHistories hist).2.labels = coins.labels ∧
      (coins.updateHistories hist).2.headerScanner =
        coins.headerScanner := by
  induction hist generalizing coins with
  | nil =>
      exact ⟨rfl, rfl, rfl⟩
  | cons row rest inductionHypothesis =>
      obtain ⟨store, labels, headerScanner⟩ :=
        updateSpkHistory_frame
          { coins with
            addressStore := coins.addressStore.recvCoinAt row.1 }
          row.1 row.2
      obtain ⟨store', labels', headerScanner'⟩ := inductionHypothesis _
      exact ⟨store'.trans store, labels'.trans labels,
        headerScanner'.trans headerScanner⟩

omit [PersistenceBackend Backend Txid TxEntry] in
theorem fst_updateSpkHistory_iff
    (coins : CoinStore Backend)
    (spk : ScriptBuf)
    (history : History) :
    (coins.updateSpkHistory spk history).1.1 = true ↔
      coins.MovesHeight spk history := by
  have shape :
      (coins.updateSpkHistory spk history).1.1 =
        !(coins.spkDiff spk history).changed.isEmpty :=
    rfl
  rw [shape, Bool.not_eq_true', Std.ExtTreeMap.isEmpty_eq_false_iff]
  constructor
  · intro nonempty
    obtain ⟨txid, member⟩ :
        ∃ txid, txid ∈ (coins.spkDiff spk history).changed := by
      by_contra none
      refine nonempty (Std.ExtTreeMap.ext_getElem? (fun txid => ?_))
      rw [BTreeMap.not_mem_iff_getElem?.mp (not_exists.mp none txid)]
      simp
    exact ⟨txid, (SpkHistory.mem_changed _ _ txid).mp member⟩
  · rintro ⟨txid, moved⟩ empty
    have member : txid ∈ (coins.spkDiff spk history).changed :=
      (SpkHistory.mem_changed _ _ txid).mpr moved
    rw [empty] at member
    simp at member

variable {hist : List (ScriptBuf × History)}

omit [PersistenceBackend Backend Txid TxEntry] in
theorem any_updateHistories_iff
    (coins : CoinStore Backend)
    (distinct : (hist.map Prod.fst).Nodup) :
    (coins.updateHistories hist).1.any Prod.fst = true ↔
      ∃ row ∈ hist, coins.MovesHeight row.1 row.2 := by
  induction hist generalizing coins with
  | nil =>
      simp [updateHistories]
  | cons row rest inductionHypothesis =>
      rw [List.map_cons, List.nodup_cons] at distinct
      have later :
          ∀ other ∈ rest,
            (updateSpkHistory
                { coins with
                  addressStore := coins.addressStore.recvCoinAt row.1 }
                row.1 row.2).2.MovesHeight other.1 other.2 ↔
              coins.MovesHeight other.1 other.2 := by
        intro other member
        have different : row.1 ≠ other.1 := fun same =>
          distinct.1 (same ▸ List.mem_map_of_mem member)
        rw [MovesHeight, latest_updateSpkHistory, if_neg different]
        rfl
      rw [updateHistories, List.any_cons, Bool.or_eq_true,
        inductionHypothesis _ distinct.2, List.exists_mem_cons_iff]
      refine or_congr (fst_updateSpkHistory_iff _ row.1 row.2) ?_
      exact exists_congr (fun other =>
        and_congr_right (fun member => later other member))

theorem removeEach_of_absent
    {txs : TxStore Backend}
    (flushed : Flushed txs.store)
    {txids : List Txid}
    (absent : ∀ txid ∈ txids, txs.get txid = none) :
    Flushed (txids.foldl TxStore.remove txs).store ∧
      ∀ query, (txids.foldl TxStore.remove txs).get query =
        txs.get query := by
  induction txids generalizing txs with
  | nil =>
      exact ⟨flushed, fun _ => rfl⟩
  | cons txid rest inductionHypothesis =>
      have same : ∀ query, (txs.remove txid).get query = txs.get query := by
        intro query
        rw [TxStore.get_remove]
        split
        · rename_i here
          rw [← here, absent txid List.mem_cons_self]
        · rfl
      have removed : Flushed (txs.remove txid).store :=
        Flushed.remove_absent flushed (absent txid List.mem_cons_self)
      obtain ⟨flushed', same'⟩ :=
        inductionHypothesis removed (fun other member => by
          rw [same]
          exact absent other (List.mem_cons_of_mem _ member))
      exact ⟨flushed', fun query => (same' query).trans (same query)⟩

/-- A history that moves no height and drops nothing stored leaves the stored
transactions as they are. -/
theorem updateSpkHistory_of_still
    {spk : ScriptBuf}
    {history : History}
    (flushed : Flushed coins.txStore.store)
    (still : (coins.updateSpkHistory spk history).1.1 = false)
    (keeps : ¬ coins.Drops spk history) :
    Flushed (coins.updateSpkHistory spk history).2.txStore.store ∧
      ∀ query, (coins.updateSpkHistory spk history).2.txStore.get query =
        coins.txStore.get query := by
  have changed : (coins.spkDiff spk history).changed = ∅ := by
    have shape :
        (coins.updateSpkHistory spk history).1.1 =
          !(coins.spkDiff spk history).changed.isEmpty :=
      rfl
    rw [shape, Bool.not_eq_false'] at still
    exact Std.ExtTreeMap.isEmpty_iff.mp still
  have dropped :
      (coins.updateSpkHistory spk history).2.txStore =
        (coins.spkDiff spk history).removed.keys.foldl TxStore.remove
          coins.txStore := by
    simp only [updateSpkHistory]
    rw [dropClaims_eq]
    dsimp only
    rw [← spkDiff, changed]
    rfl
  rw [dropped]
  refine removeEach_of_absent flushed (fun txid member => ?_)
  obtain ⟨listed, gone⟩ :=
    (SpkHistory.mem_removed _ _ txid).mp (Std.ExtTreeMap.mem_keys.mp member)
  by_contra stored
  exact keeps ⟨txid, stored, listed, gone⟩

/-- Histories that move no height and drop nothing stored leave the stored
transactions as they are. -/
theorem updateHistories_of_still
    (distinct : (hist.map Prod.fst).Nodup)
    (flushed : Flushed coins.txStore.store)
    (still : (coins.updateHistories hist).1.any Prod.fst = false)
    (keeps : ∀ row ∈ hist, ¬ coins.Drops row.1 row.2) :
    Flushed (coins.updateHistories hist).2.txStore.store ∧
      ∀ query, (coins.updateHistories hist).2.txStore.get query =
        coins.txStore.get query := by
  induction hist generalizing coins with
  | nil =>
      exact ⟨flushed, fun _ => rfl⟩
  | cons row rest inductionHypothesis =>
      rw [List.map_cons, List.nodup_cons] at distinct
      rw [updateHistories, List.any_cons, Bool.or_eq_false_iff] at still
      let watched : CoinStore Backend :=
        { coins with
          addressStore := coins.addressStore.recvCoinAt row.1 }
      have begun : Flushed watched.txStore.store := flushed
      have here : ¬ watched.Drops row.1 row.2 :=
        keeps row List.mem_cons_self
      obtain ⟨flushed', same⟩ :=
        updateSpkHistory_of_still begun still.1 here
      obtain ⟨flushed'', same'⟩ :=
        inductionHypothesis distinct.2 flushed' still.2
          (by
            rintro other member ⟨txid, stored, listed, gone⟩
            have different : row.1 ≠ other.1 := fun same =>
              distinct.1 (same ▸ List.mem_map_of_mem member)
            rw [same] at stored
            rw [latest_updateSpkHistory, if_neg different] at listed
            exact keeps other (List.mem_cons_of_mem _ member)
              ⟨txid, stored, listed, gone⟩)
      exact ⟨flushed'', fun query => (same' query).trans (same query)⟩

/-- The coins are what `generate` would give, and the stored transactions are
flushed. -/
structure Current
    (crate : TxCrate)
    (coins : CoinStore Backend) : Prop where
  view : coins.store = coins.coinMap crate
  flushed : Flushed coins.txStore.store
  sound : coins.Sound crate
  populated : coins.addressStore.Populated

theorem Current.of_same
    {after : CoinStore Backend}
    (current : coins.Current crate)
    (same : SameSources after coins)
    (store : after.store = coins.store)
    (flushed : Flushed after.txStore.store)
    (sound : after.Sound crate)
    (populated : after.addressStore.Populated) :
    after.Current crate where
  view := by
    rw [store, current.view, same.coinMap_eq sound.keyed current.sound.keyed]
  flushed := flushed
  sound := sound
  populated := populated

variable [LawfulBackend Backend] [ReliableBackend Backend]

theorem current_generate
    (sound : coins.Sound crate)
    (coherent : coins.txStore.store.Coherent)
    (populated : coins.addressStore.Populated) :
    (coins.generate crate).Current crate where
  view := by
    rw [(sameSources_generate sound.keyed).coinMap_eq
      (keyed_generate sound.keyed) sound.keyed]
    rfl
  flushed := by
    refine flushed_flush ?_
    exact coherent_populateTxMetadata coherent
  sound := sound.generate
  populated := (sameWindow_generate crate coins).populated populated

theorem current_persist_generate
    (sound : coins.Sound crate)
    (coherent : coins.txStore.store.Coherent)
    (populated : coins.addressStore.Populated) :
    ({ coins with txStore := coins.txStore.persist }.generate crate).Current
      crate := by
  refine current_generate ⟨keyed_persist sound.keyed, sound.slots⟩ ?_ populated
  exact RamStore.Coherent.flush coherent

omit [LawfulBackend Backend] [ReliableBackend Backend] in
/-- What holds of the stores of a current view once histories are folded. -/
theorem Current.folded
    (current : coins.Current crate)
    (hist : BTreeMap ScriptBuf History) :
    (coins.foldedResponse hist).Sound crate ∧
      (coins.foldedResponse hist).txStore.store.Coherent ∧
      (coins.foldedResponse hist).addressStore.Populated := by
  refine ⟨current.sound.foldedResponse hist,
    coherent_updateHistories current.flushed.coherent hist.toList, ?_⟩
  rw [show (coins.foldedResponse hist).addressStore =
      (coins.updateHistories hist.toList).2.addressStore from rfl,
    addressStore_updateHistories]
  exact (AddressStore.advances_recvCoinsAt _ _).populated current.populated

/-- The stores stay in order in a history response, whatever it recomputes. -/
theorem Current.ordered_handleHistoryResponse
    (current : coins.Current crate)
    (hist : BTreeMap ScriptBuf History) :
    (coins.handleHistoryResponse crate hist).2.Sound crate ∧
      (coins.handleHistoryResponse crate hist).2.txStore.store.Coherent ∧
      (coins.handleHistoryResponse crate hist).2.addressStore.Populated := by
  obtain ⟨sound, coherent, populated⟩ := current.folded hist
  rcases handleHistoryResponse_eq crate coins hist with plain | regenerated
  · rw [plain]
    exact ⟨sound, coherent, populated⟩
  · rw [regenerated]
    have after := current_generate sound coherent populated
    exact ⟨after.sound, after.flushed.coherent, after.populated⟩

/-- A history response leaves the view current when it recomputes the coins,
or has nothing to recompute them for. -/
theorem Current.handleHistoryResponse
    (current : coins.Current crate)
    (hist : BTreeMap ScriptBuf History)
    (quiet :
      coins.addressStore.MovesTip (hist.toList.map Prod.fst) ∨
        (coins.updateHistories hist.toList).1.any Prod.fst = false ∧
          ∀ row ∈ hist.toList, ¬ coins.Drops row.1 row.2) :
    (coins.handleHistoryResponse crate hist).2.Current crate := by
  obtain ⟨sound, coherent, populated⟩ := current.folded hist
  have reported :
      (coins.foldedResponse hist).addressStore =
        coins.addressStore.recvCoinsAt (hist.toList.map Prod.fst) :=
    addressStore_updateHistories coins hist.toList
  rw [handleHistoryResponse_cases, reported]
  split
  · rename_i still
    have unmoved :
        ¬ coins.addressStore.MovesTip (hist.toList.map Prod.fst) := by
      rintro (moved | moved)
      · exact moved still.1
      · exact moved still.2
    obtain ⟨unchanged, keeps⟩ := quiet.resolve_left unmoved
    obtain ⟨flushed, same⟩ :=
      updateHistories_of_still (BTreeMap.nodup_toList hist) current.flushed
        unchanged keeps
    obtain ⟨store, labels, headerScanner⟩ :=
      updateHistories_frame coins hist.toList
    refine current.of_same ⟨?_, ?_, headerScanner, labels⟩ store flushed sound
      populated
    · intro txid
      rw [show (coins.foldedResponse hist).txStore.get txid =
        coins.txStore.get txid from same txid]
    · intro spk
      rw [reported, AddressStore.recvCoinsAt_of_still current.populated _
        unmoved]
  · exact current_generate sound coherent populated

omit [LawfulBackend Backend] [ReliableBackend Backend] in
theorem Current.recordReportedHeights
    (current : coins.Current crate)
    (reported : List ClaimAt) :
    (coins.recordReportedHeights reported).Current crate := by
  rw [recordReportedHeights_eq]
  exact current.of_same ⟨fun _ => rfl, fun _ => rfl, rfl, rfl⟩ rfl
    current.flushed ⟨current.sound.keyed, current.sound.slots⟩
    current.populated

/-- Committing a history leaves the view current when it recomputes the coins,
or when it was current. -/
theorem current_commitHistory
    {outcome : HistoryOutcome}
    (sound : coins.Sound crate)
    (coherent : coins.txStore.store.Coherent)
    (populated : coins.addressStore.Populated)
    (current : outcome.heightUpdated = false → coins.Current crate) :
    (coins.commitHistory crate outcome).Current crate := by
  unfold commitHistory
  dsimp only
  cases updated : outcome.heightUpdated with
  | true =>
      rw [if_pos rfl, recordReportedHeights_eq]
      let recorded : CoinStore Backend :=
        { coins with
          pendingClaims :=
            (coins.recordReportedHeights outcome.reported).pendingClaims }
      have recordedSound : recorded.Sound crate :=
        ⟨sound.keyed, sound.slots⟩
      exact current_persist_generate recordedSound coherent populated
  | false =>
      rw [if_neg (by simp)]
      exact (current updated).recordReportedHeights outcome.reported

theorem Current.foldHistory
    (current : coins.Current crate)
    {connected : Bool}
    {hist : BTreeMap ScriptBuf History}
    (complete :
      (coins.handleHistoryResponse crate hist).1.missingTxs = [] ∨
        connected = true)
    (clean :
      (∃ row ∈ hist.toList, coins.MovesHeight row.1 row.2) ∨
        coins.addressStore.MovesTip (hist.toList.map Prod.fst) ∨
        ∀ row ∈ hist.toList, ¬ coins.Drops row.1 row.2) :
    (coins.foldHistory crate connected hist).Current crate := by
  obtain ⟨sound, coherent, populated⟩ :=
    current.ordered_handleHistoryResponse hist
  rw [CoinStore.foldHistory]
  dsimp only
  rw [if_pos complete]
  refine current_commitHistory sound coherent populated (fun unchanged => ?_)
  have still : (coins.updateHistories hist.toList).1.any Prod.fst = false :=
    unchanged
  refine current.handleHistoryResponse hist ?_
  rcases clean with moved | tip | keeps
  · rw [(any_updateHistories_iff coins (BTreeMap.nodup_toList hist)).mpr
      moved] at still
    cases still
  · exact Or.inl tip
  · exact Or.inr ⟨still, keeps⟩

theorem Current.handleTxsResponse
    (current : coins.Current crate)
    (txs : List Transaction) :
    (coins.handleTxsResponse crate txs).Current crate := by
  have received := current.sound.receivedTxs txs
  exact current_generate received
    (TxStore.coherent_insertUpdates current.flushed.coherent crate _)
    current.populated

/-- What confirming claims does; `changed` tells that one was promoted. -/
structure Confirms
    (crate : TxCrate)
    (before after : CoinStore Backend)
    (changed : Bool) : Prop where
  same :
    after =
      { before with
        txStore := after.txStore
        pendingClaims := after.pendingClaims }
  coherent : before.txStore.store.Coherent → after.txStore.store.Coherent
  keyed : before.txStore.Keyed crate → after.txStore.Keyed crate
  quiet : changed = false → after.txStore = before.txStore

namespace Confirms

variable {first second third : CoinStore Backend} {changed changed' : Bool}

omit [LawfulBackend Backend] [ReliableBackend Backend] in
theorem refl (coins : CoinStore Backend) :
    Confirms crate coins coins false :=
  ⟨rfl, id, id, fun _ => rfl⟩

omit [LawfulBackend Backend] [ReliableBackend Backend] in
theorem trans
    (confirms : Confirms crate first second changed)
    (confirms' : Confirms crate second third changed') :
    Confirms crate first third (changed || changed') where
  same := by
    rw [confirms'.same, confirms.same]
  coherent begun := confirms'.coherent (confirms.coherent begun)
  keyed begun := confirms'.keyed (confirms.keyed begun)
  quiet unchanged := by
    rw [Bool.or_eq_false_iff] at unchanged
    rw [confirms'.quiet unchanged.2, confirms.quiet unchanged.1]

omit [LawfulBackend Backend] [ReliableBackend Backend] in
theorem queue
    {after : CoinStore Backend}
    (same :
      after = { first with pendingClaims := after.pendingClaims }) :
    Confirms crate first after false := by
  have stored : after.txStore = first.txStore := by
    rw [same]
  refine ⟨?_, fun begun => ?_, fun begun => ?_, fun _ => stored⟩
  · rw [stored]
    exact same
  · rw [stored]
    exact begun
  · rw [stored]
    exact begun

end Confirms

section Confirm

variable {Raw : Type} (btc : Bitcoin Raw)

omit [LawfulBackend Backend] [ReliableBackend Backend] in
theorem confirms_confirmClaim
    (height : Nat)
    (header : Header)
    (pass : Bool × CoinStore Backend)
    (txid : Txid) :
    ∃ changed,
      (confirmClaim btc height header pass txid).1 = (pass.1 || changed) ∧
        Confirms crate pass.2 (confirmClaim btc height header pass txid).2
          changed := by
  unfold confirmClaim
  dsimp only
  split
  · split
    · exact ⟨false, (Bool.or_false _).symm, .refl _⟩
    · exact ⟨false, (Bool.or_false _).symm,
        .queue (removePendingClaim_eq _ _)⟩
  · refine ⟨true, (Bool.or_true _).symm, ?_⟩
    rw [removePendingClaim_eq]
    refine ⟨rfl, fun coherent => ?_, fun keyed => ?_, fun impossible => ?_⟩
    · exact RamStore.Coherent.modify
        (RamStore.Coherent.modify coherent _ _) _ _
    · intro query entry stored
      dsimp only at stored
      rw [TxStore.get_updateTimestamp] at stored
      have promoted := keyed_updateInclusion keyed txid
        (.confirmedUnverified height (btc.blockHash header))
      split at stored
      · obtain ⟨before, found, rfl⟩ := Option.map_eq_some_iff.mp stored
        exact promoted query before found
      · exact promoted query entry stored
    · cases impossible
  · exact ⟨false, (Bool.or_false _).symm,
      .queue (removePendingClaim_eq _ _)⟩

omit [LawfulBackend Backend] [ReliableBackend Backend] in
theorem confirms_confirmPendingClaims
    (coins : CoinStore Backend)
    (height : Nat)
    (header : Header) :
    Confirms crate coins (coins.confirmPendingClaims btc height header).2
      (coins.confirmPendingClaims btc height header).1 := by
  unfold confirmPendingClaims
  split
  · exact .refl coins
  · rename_i txids _
    suffices every :
        ∀ (txids : List Txid) (pass : Bool × CoinStore Backend),
          ∃ changed,
            (txids.foldl (confirmClaim btc height header) pass).1 =
                (pass.1 || changed) ∧
              Confirms crate pass.2
                (txids.foldl (confirmClaim btc height header) pass).2
                changed by
      obtain ⟨changed, told, confirms⟩ := every txids.toList (false, coins)
      rw [told, Bool.false_or]
      exact confirms
    intro txids
    induction txids with
    | nil =>
        exact fun pass => ⟨false, (Bool.or_false _).symm, .refl _⟩
    | cons txid rest inductionHypothesis =>
        intro pass
        obtain ⟨changed, told, confirms⟩ :=
          @confirms_confirmClaim _ _ crate _ btc height header pass txid
        obtain ⟨changed', told', confirms'⟩ := inductionHypothesis
          (confirmClaim btc height header pass txid)
        refine ⟨changed || changed', ?_, confirms.trans confirms'⟩
        rw [List.foldl_cons, told', told, Bool.or_assoc]

omit [LawfulBackend Backend] [ReliableBackend Backend] in
theorem confirms_confirmHeights
    (heights : List Nat)
    (pass : ConfirmPass Backend) :
    ∃ changed,
      (heights.foldl (ScanLoop.confirmHeight btc) pass).changed =
          (pass.changed || changed) ∧
        Confirms crate pass.coins
          (heights.foldl (ScanLoop.confirmHeight btc) pass).coins changed := by
  induction heights generalizing pass with
  | nil =>
      exact ⟨false, (Bool.or_false _).symm, .refl _⟩
  | cons height rest inductionHypothesis =>
      obtain ⟨changed, told, confirms⟩ :
          ∃ changed,
            (ScanLoop.confirmHeight btc pass height).changed =
                (pass.changed || changed) ∧
              Confirms crate pass.coins
                (ScanLoop.confirmHeight btc pass height).coins changed := by
        unfold ScanLoop.confirmHeight
        split
        · exact ⟨_, rfl, confirms_confirmPendingClaims btc _ _ _⟩
        · exact ⟨false, (Bool.or_false _).symm, .refl _⟩
        · exact ⟨false, (Bool.or_false _).symm, .refl _⟩
      obtain ⟨changed', told', confirms'⟩ := inductionHypothesis
        (ScanLoop.confirmHeight btc pass height)
      refine ⟨changed || changed', ?_, confirms.trans confirms'⟩
      rw [List.foldl_cons, told', told, Bool.or_assoc]

/-- A pass that promoted a claim recomputes the coins, and another one leaves
their sources. -/
theorem Current.commitConfirmed
    (current : coins.Current crate)
    {pass : ConfirmPass Backend}
    (confirms : Confirms crate coins pass.coins pass.changed) :
    (ScanLoop.commitConfirmed crate pass).Current crate := by
  have sound : pass.coins.Sound crate := by
    refine ⟨confirms.keyed current.sound.keyed, ?_⟩
    rw [confirms.same]
    exact current.sound.slots
  have populated : pass.coins.addressStore.Populated := by
    rw [confirms.same]
    exact current.populated
  unfold ScanLoop.commitConfirmed
  cases changed : pass.changed with
  | true =>
      rw [if_pos rfl]
      exact current_persist_generate sound
        (confirms.coherent current.flushed.coherent) populated
  | false =>
      rw [if_neg (by simp)]
      have stored := confirms.quiet changed
      refine current.of_same ⟨?_, ?_, ?_, ?_⟩ ?_ ?_ sound populated
      · intro txid
        rw [stored]
      · intro spk
        rw [confirms.same]
      · rw [confirms.same]
      · rw [confirms.same]
      · rw [confirms.same]
      · rw [stored]
        exact current.flushed

end Confirm

omit [LawfulBackend Backend] [ReliableBackend Backend] in
theorem drops_of_generate
    (keyed : coins.txStore.Keyed crate)
    {spk : ScriptBuf}
    {history : History}
    (drops : (coins.generate crate).Drops spk history) :
    coins.Drops spk history := by
  obtain ⟨txid, stored, listed, gone⟩ := drops
  refine ⟨txid, fun absent => stored ?_, listed, gone⟩
  have bare := bare_generate keyed txid
  rw [absent, Option.map_none, Option.map_eq_none_iff] at bare
  exact bare

omit [LawfulBackend Backend] [ReliableBackend Backend] in
theorem drops_of_clear
    (keyed : coins.txStore.Keyed crate)
    {spk other : ScriptBuf}
    (different : spk ≠ other)
    {history : History}
    (drops :
      (coins.handleHistoryResponse crate
        ((∅ : BTreeMap ScriptBuf History).insert spk [])).2.Drops other
          history) :
    coins.Drops other history := by
  obtain ⟨txid, stored, listed, gone⟩ := drops
  refine ⟨txid, fun absent => stored ?_, ?_, gone⟩
  · have shrunk :=
      shrinks_handleHistoryResponse keyed
        ((∅ : BTreeMap ScriptBuf History).insert spk []) txid
    simp only [kept, absent, Option.map_none, or_self,
      Option.map_eq_none_iff] at shrunk
    exact shrunk
  · have folded :
        (coins.handleHistoryResponse crate
            ((∅ : BTreeMap ScriptBuf History).insert spk [])).2.latest other =
          (coins.foldedResponse
            ((∅ : BTreeMap ScriptBuf History).insert spk [])).latest
              other := by
      rcases handleHistoryResponse_eq crate coins
          ((∅ : BTreeMap ScriptBuf History).insert spk []) with
        plain | regenerated
      · rw [plain]
      · rw [regenerated]
        rfl
    rw [folded, latest_foldedResponse, latestAfter,
      BTreeMap.getElem?_insert_eq, if_neg different] at listed
    simpa using listed

/-- Clearing a script that drops nothing stored leaves the view current. -/
theorem Current.clear
    (current : coins.Current crate)
    {spk : ScriptBuf}
    (keeps : ¬ coins.Drops spk []) :
    (coins.handleHistoryResponse crate
      ((∅ : BTreeMap ScriptBuf History).insert spk [])).2.Current crate := by
  have single :
      ∀ row ∈ ((∅ : BTreeMap ScriptBuf History).insert spk []).toList,
        row = (spk, []) := by
    intro row member
    have found := Std.ExtTreeMap.mem_toList_iff_getElem?_eq_some.mp member
    rw [BTreeMap.getElem?_insert_eq] at found
    split at found
    · rename_i here
      exact Prod.ext here.symm (Option.some.inj found).symm
    · simp at found
  refine current.handleHistoryResponse _ (Or.inr ⟨?_, ?_⟩)
  · rw [Bool.eq_false_iff, ne_eq,
      any_updateHistories_iff coins (BTreeMap.nodup_toList _)]
    rintro ⟨row, member, txid, before, now, _, found, _⟩
    rw [single row member] at found
    simp [BTreeMap.insertAll] at found
  · intro row member
    rw [single row member]
    exact keeps

end CoinStore

namespace Listener

variable {Backend StatusRows : Type}
variable [PersistenceBackend Backend Txid TxEntry]
variable [PersistenceBackend StatusRows ScriptBuf StatusEntry]
variable [LawfulBackend Backend] [ReliableBackend Backend]
variable {crate : TxCrate} {listener : Listener Backend StatusRows}

omit [PersistenceBackend StatusRows ScriptBuf StatusEntry] in
/-- A clean status leaves the view current, and other statuses as clean as they
were. -/
theorem current_foldStatus
    (current : listener.coins.Current crate)
    {spk : ScriptBuf}
    {status : Option Status}
    (clean :
      status = none → listener.statuses.get spk = none →
        ¬ listener.coins.Drops spk []) :
    (listener.foldStatus crate spk status).2.2.coins.Current crate ∧
      ∀ other, spk ≠ other →
        (listener.foldStatus crate spk status).2.2.statuses.get other =
            listener.statuses.get other ∧
          ((listener.foldStatus crate spk status).2.2.coins.Drops other [] →
            listener.coins.Drops other []) := by
  have modified :
      ∀ other, spk ≠ other →
        (listener.statuses.modify spk
            (fun entry => { entry with status := status })).get other =
          listener.statuses.get other := by
    intro other different
    rw [RamStore.get, RamStore.getElem?_cache_modify, if_neg different]
    rfl
  obtain ⟨sound, coherent, populated⟩ :=
    current.ordered_handleHistoryResponse
      ((∅ : BTreeMap ScriptBuf History).insert spk [])
  unfold foldStatus
  split
  · split
    · exact ⟨current, fun _ _ => ⟨rfl, id⟩⟩
    · cases status with
      | some value =>
          exact ⟨current, fun other different =>
            ⟨modified other different, id⟩⟩
      | none =>
          refine ⟨CoinStore.current_generate sound coherent populated,
            fun other different => ⟨modified other different, fun drops => ?_⟩⟩
          exact CoinStore.drops_of_clear current.sound.keyed different
            (CoinStore.drops_of_generate sound.keyed drops)
  · rename_i unknown
    cases status with
    | some value =>
        exact ⟨current, fun _ _ => ⟨rfl, id⟩⟩
    | none =>
        refine ⟨current.clear (clean rfl unknown), fun other different =>
          ⟨rfl, fun drops => ?_⟩⟩
        exact CoinStore.drops_of_clear current.sound.keyed different drops

omit [PersistenceBackend StatusRows ScriptBuf StatusEntry] in
theorem current_foldStatuses
    (current : listener.coins.Current crate)
    {reported : List (ScriptBuf × Option Status)}
    (distinct : (reported.map Prod.fst).Nodup)
    (clean :
      ∀ row ∈ reported, row.2 = none →
        listener.statuses.get row.1 = none →
          ¬ listener.coins.Drops row.1 []) :
    (listener.foldStatuses crate reported).2.2.coins.Current crate := by
  induction reported generalizing listener with
  | nil =>
      exact current
  | cons row rest inductionHypothesis =>
      rw [List.map_cons, List.nodup_cons] at distinct
      obtain ⟨folded, others⟩ :=
        current_foldStatus current (clean row List.mem_cons_self)
      refine inductionHypothesis folded distinct.2 ?_
      intro other member none unknown
      have different : row.1 ≠ other.1 := fun same =>
        distinct.1 (same ▸ List.mem_map_of_mem member)
      obtain ⟨sameStatus, fewer⟩ := others other.1 different
      exact fun drops =>
        clean other (List.mem_cons_of_mem _ member) none
          (sameStatus.symm.trans unknown) (fewer drops)

omit [PersistenceBackend Backend Txid TxEntry]
  [PersistenceBackend StatusRows ScriptBuf StatusEntry]
  [LawfulBackend Backend] [ReliableBackend Backend] in
theorem coins_send
    (listener : Listener Backend StatusRows)
    (request : CoinRequest) :
    (listener.send request).2.coins = listener.coins := by
  unfold send
  split <;> rfl

omit [LawfulBackend Backend] [ReliableBackend Backend] in
/-- What is left of the coins of a status response is what folding left. -/
theorem coins_handleStatusResponse
    (reported : BTreeMap ScriptBuf (Option Status)) :
    (listener.handleStatusResponse crate reported).2.coins =
      (listener.foldStatuses crate reported.toList).2.2.coins := by
  simp only [handleStatusResponse]
  by_cases quiet :
      (listener.foldStatuses crate reported.toList).1 = []
  · rw [if_pos quiet, if_pos rfl]
    dsimp only
    split <;> rfl
  · rw [if_neg quiet]
    split
    · dsimp only
      split
      · exact coins_send _ _
      · exact coins_send _ _
    · exact coins_send _ _

omit [LawfulBackend Backend] [ReliableBackend Backend]
  [PersistenceBackend Backend Txid TxEntry] in
theorem coins_handleAddressTip
    (derivator : SpkDerivator)
    (tip : AddressTip) :
    (listener.handleAddressTip derivator tip).2.coins = listener.coins := by
  simp only [handleAddressTip]
  split
  · rfl
  · exact coins_send _ _

end Listener

end Bwk
