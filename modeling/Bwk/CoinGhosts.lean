import Bwk.CoinClaims

namespace Bwk

/-!
# Transactions without a history

A transaction is stored because a history listed it, and a history that lists
it no longer takes it out of the store.  An update that still waits for other
transactions keeps what it was asked to store, though, and stores it once it
is complete.  So a stored transaction is still listed as long as no history
drops, from the last script that lists it, what a pending update holds.
-/

namespace SpkHistory

variable (spk : SpkHistory) (reported : History)

theorem last_insert :
    (spk.insert reported).2.last =
      (∅ : HistoryMap).insertAll reported := by
  have pushed (next : HistoryMap) : (spk.push next).last = next := by
    simp [push, last]
  unfold insert
  dsimp only
  split
  · rename_i noneBefore
    split
    · rename_i noneNow
      rw [Std.ExtTreeMap.isEmpty_iff.mp noneBefore,
        Std.ExtTreeMap.isEmpty_iff.mp noneNow]
    · exact pushed _
  · exact pushed _

theorem mem_removed
    (txid : Txid) :
    txid ∈ (spk.insert reported).1.removed ↔
      txid ∈ spk.last ∧ txid ∉ (∅ : HistoryMap).insertAll reported := by
  unfold insert
  dsimp only
  split
  · rename_i noneBefore
    rw [Std.ExtTreeMap.isEmpty_iff.mp noneBefore]
    split <;> simp
  · rw [BTreeMap.mem_iff_getElem?, BTreeMap.mem_iff_getElem?]
    simp only [BTreeMap.getElem?_retain, Option.filter_eq_some_iff,
      decide_eq_true_eq]
    constructor
    · rintro ⟨height, found, absent⟩
      exact ⟨⟨height, found⟩, absent⟩
    · rintro ⟨⟨height, found⟩, absent⟩
      exact ⟨height, found, absent⟩

theorem listed_of_mem_added
    {txid : Txid}
    (added : txid ∈ (spk.insert reported).1.added) :
    txid ∈ (∅ : HistoryMap).insertAll reported := by
  unfold insert at added
  dsimp only at added
  split at added
  · split at added
    · simp at added
    · exact added
  · rw [BTreeMap.mem_iff_getElem?, BTreeMap.getElem?_retain] at added
    obtain ⟨height, found⟩ := added
    exact BTreeMap.mem_iff_getElem?.mpr
      ⟨height, (Option.filter_eq_some_iff.mp found).1⟩

end SpkHistory

namespace CoinStore

variable {Backend : Type} {coins : CoinStore Backend}

def latest (coins : CoinStore Backend) (spk : ScriptBuf) : HistoryMap :=
  (coins.spkHistory[spk]?.getD SpkHistory.new).last

/-- Some script's latest history has the transaction. -/
def Listed (coins : CoinStore Backend) (txid : Txid) : Prop :=
  ∃ spk, txid ∈ coins.latest spk

theorem latest_updateSpkHistory
    (spk : ScriptBuf)
    (history : History)
    (query : ScriptBuf) :
    (coins.updateSpkHistory spk history).2.latest query =
      if spk = query then
        (∅ : HistoryMap).insertAll history
      else
        coins.latest query := by
  rw [latest, spkHistory_updateSpkHistory, BTreeMap.getElem?_insert_eq]
  split
  · exact SpkHistory.last_insert _ _
  · rfl

theorem latest_updateHistories
    {hist : List (ScriptBuf × History)}
    (distinct : (hist.map Prod.fst).Nodup)
    (query : ScriptBuf) :
    (query ∉ hist.map Prod.fst →
      (coins.updateHistories hist).2.latest query = coins.latest query) ∧
    ∀ history, (query, history) ∈ hist →
      (coins.updateHistories hist).2.latest query =
        (∅ : HistoryMap).insertAll history := by
  induction hist generalizing coins with
  | nil =>
      exact ⟨fun _ => rfl, fun _ listed => nomatch listed⟩
  | cons row rest inductionHypothesis =>
      obtain ⟨spk, reported⟩ := row
      rw [List.map_cons, List.nodup_cons] at distinct
      obtain ⟨absentAfter, listedAfter⟩ :=
        @inductionHypothesis
          ({ coins with
              addressStore := coins.addressStore.recvCoinAt spk
            }.updateSpkHistory spk reported).2 distinct.2
      refine ⟨?_, ?_⟩
      · intro absent
        rw [List.map_cons, List.mem_cons, not_or] at absent
        refine (absentAfter absent.2).trans ?_
        rw [latest_updateSpkHistory, if_neg (Ne.symm absent.1)]
        rfl
      · intro history listed
        rcases List.mem_cons.mp listed with here | later
        · cases here
          refine (absentAfter distinct.1).trans ?_
          rw [latest_updateSpkHistory, if_pos rfl]
        · exact listedAfter history later

/-- Every stored transaction outside `before` is listed. -/
def StoredListed
    (before : TxStore Backend)
    (coins : CoinStore Backend) : Prop :=
  ∀ txid, before.get txid = none → coins.txStore.get txid ≠ none →
    coins.Listed txid

theorem StoredListed.updateSpkHistory
    {before : TxStore Backend}
    (stored : coins.StoredListed before)
    (spk : ScriptBuf)
    (history : History) :
    (coins.updateSpkHistory spk history).2.StoredListed before := by
  intro txid new present
  rw [get_updateSpkHistory] at present
  have unremoved : txid ∉ (coins.spkDiff spk history).removed := by
    intro removed
    split at present
    · exact present rfl
    · exact present rfl
  have presentBefore : coins.txStore.get txid ≠ none := by
    intro absent
    simp [absent] at present
  obtain ⟨query, listed⟩ := stored txid new presentBefore
  refine ⟨query, ?_⟩
  rw [latest_updateSpkHistory]
  split
  · rename_i here
    subst here
    by_contra dropped
    exact unremoved ((SpkHistory.mem_removed _ _ txid).mpr
      ⟨listed, dropped⟩)
  · exact listed

theorem StoredListed.updateHistories
    {before : TxStore Backend}
    (stored : coins.StoredListed before)
    (hist : List (ScriptBuf × History)) :
    (coins.updateHistories hist).2.StoredListed before := by
  induction hist generalizing coins with
  | nil =>
      exact stored
  | cons row rest inductionHypothesis =>
      have watched :
          CoinStore.StoredListed before
            { coins with
              addressStore := coins.addressStore.recvCoinAt row.1 } :=
        stored
      exact inductionHypothesis (watched.updateSpkHistory row.1 row.2)

theorem reported_of_slot
    {hist : List (ScriptBuf × History)}
    {folded : Bool × Update}
    (listed : folded ∈ (coins.updateHistories hist).1)
    {slot : Txid × Option Transaction}
    (inside : slot ∈ folded.2.txs) :
    ∃ row ∈ hist, slot.1 ∈ (∅ : HistoryMap).insertAll row.2 := by
  induction hist generalizing coins with
  | nil =>
      cases listed
  | cons row rest inductionHypothesis =>
      rcases List.mem_cons.mp listed with rfl | later
      · obtain ⟨txid, added, rfl⟩ := List.mem_map.mp inside
        exact ⟨row, List.mem_cons_self,
          SpkHistory.listed_of_mem_added _ _ (Std.ExtTreeMap.mem_keys.mp added)⟩
      · obtain ⟨named, member, reported⟩ := inductionHypothesis later
        exact ⟨named, List.mem_cons_of_mem _ member, reported⟩

/-- The latest history of a script once a response is folded. -/
def latestAfter
    (coins : CoinStore Backend)
    (hist : BTreeMap ScriptBuf History)
    (spk : ScriptBuf) : HistoryMap :=
  match hist[spk]? with
  | some history => (∅ : HistoryMap).insertAll history
  | none => coins.latest spk

/-- Every new transaction stored or waited for is listed. -/
structure Grounded
    (before : TxStore Backend)
    (coins : CoinStore Backend) : Prop where
  stored : coins.StoredListed before
  held :
    ∀ txid, before.get txid = none → coins.updateInFlight txid = true →
      coins.Listed txid

variable [PersistenceBackend Backend Txid TxEntry]
variable {crate : TxCrate} {before : TxStore Backend}

omit [PersistenceBackend Backend Txid TxEntry] in
theorem latest_foldedResponse
    (hist : BTreeMap ScriptBuf History)
    (query : ScriptBuf) :
    (coins.foldedResponse hist).latest query =
      coins.latestAfter hist query := by
  have distinct := BTreeMap.nodup_toList hist
  obtain ⟨absent, listed⟩ :=
    @latest_updateHistories _ coins _ distinct query
  unfold latestAfter
  cases found : hist[query]? with
  | some history =>
      exact listed history
        (Std.ExtTreeMap.mem_toList_iff_getElem?_eq_some.mpr found)
  | none =>
      refine absent ?_
      intro member
      obtain ⟨⟨spk, history⟩, inHist, rfl⟩ := List.mem_map.mp member
      rw [Std.ExtTreeMap.mem_toList_iff_getElem?_eq_some.mp inHist] at found
      cases found

omit [PersistenceBackend Backend Txid TxEntry] in
theorem held_foldedResponse
    {hist : BTreeMap ScriptBuf History}
    {txid : Txid}
    (held : (coins.foldedResponse hist).updateInFlight txid = true) :
    coins.updateInFlight txid = true ∨
      ∃ (spk : ScriptBuf) (history : History), hist[spk]? = some history ∧
        txid ∈ (∅ : HistoryMap).insertAll history := by
  obtain ⟨update, listed, inUpdate⟩ := List.any_eq_true.mp held
  obtain ⟨slot, inside, named⟩ := List.any_eq_true.mp inUpdate
  have sameName : slot.1 = txid := of_decide_eq_true named
  rcases List.mem_append.mp listed with earlier | fresh
  · rw [updates_updateHistories] at earlier
    exact .inl (List.any_eq_true.mpr ⟨update, earlier, inUpdate⟩)
  · obtain ⟨folded, member, rfl⟩ :=
      List.mem_map.mp (List.mem_of_mem_filter fresh)
    obtain ⟨asked, inAsked, rfl⟩ := List.mem_map.mp inside
    obtain ⟨⟨spk, history⟩, inHist, reported⟩ :=
      reported_of_slot member inAsked
    have askedName : asked.1 = txid := by
      rw [← sameName]
      split <;> rfl
    exact .inr ⟨spk, history,
      Std.ExtTreeMap.mem_toList_iff_getElem?_eq_some.mp inHist,
      askedName ▸ reported⟩

omit [PersistenceBackend Backend Txid TxEntry] in
theorem Grounded.congr
    {after : CoinStore Backend}
    (grounded : coins.Grounded before)
    (sameStored :
      ∀ txid, kept after.txStore txid = kept coins.txStore txid)
    (sameUpdates : after.updates = coins.updates)
    (sameHistories : after.spkHistory = coins.spkHistory) :
    after.Grounded before := by
  have listed (txid : Txid) (isListed : coins.Listed txid) :
      after.Listed txid := by
    obtain ⟨spk, inLatest⟩ := isListed
    refine ⟨spk, ?_⟩
    rw [latest, sameHistories]
    exact inLatest
  refine ⟨?_, ?_⟩
  · intro txid new present
    refine listed txid (grounded.stored txid new ?_)
    intro absent
    have gone := sameStored txid
    rw [kept, kept, absent] at gone
    exact present (Option.map_eq_none_iff.mp gone)
  · intro txid new held
    rw [updateInFlight, sameUpdates] at held
    exact listed txid (grounded.held txid new held)

/-- No history drops what a pending update alone still waits for. -/
def KeepsHeld
    (before : TxStore Backend)
    (coins : CoinStore Backend)
    (hist : BTreeMap ScriptBuf History) : Prop :=
  ∀ txid, before.get txid = none →
    coins.updateInFlight txid = true → coins.Listed txid →
      ∃ spk, txid ∈ coins.latestAfter hist spk

variable {hist : BTreeMap ScriptBuf History}

theorem Grounded.handleHistoryResponse
    (grounded : coins.Grounded before)
    (sound : coins.Sound crate)
    (keeps : coins.KeepsHeld before hist) :
    (coins.handleHistoryResponse crate hist).2.Grounded before := by
  have folded : (coins.foldedResponse hist).Grounded before := by
    refine ⟨grounded.stored.updateHistories hist.toList, ?_⟩
    intro txid new held
    rcases held_foldedResponse held with
      earlier | ⟨spk, history, answered, reported⟩
    · obtain ⟨spk, inLatest⟩ :=
        keeps txid new earlier (grounded.held txid new earlier)
      exact ⟨spk, by rw [latest_foldedResponse]; exact inLatest⟩
    · refine ⟨spk, ?_⟩
      rw [latest_foldedResponse, latestAfter, answered]
      exact reported
  rcases handleHistoryResponse_eq crate coins hist with plain | regenerated
  · rw [plain]
    exact folded
  · have keyed : (coins.foldedResponse hist).txStore.Keyed crate :=
      (shrinks_updateHistories coins hist.toList).keyed sound.keyed
    rw [regenerated]
    exact folded.congr (bare_generate keyed) rfl rfl

theorem commitHistory_sources
    (outcome : HistoryOutcome)
    (coins : CoinStore Backend) :
    (coins.commitHistory crate outcome).updates = coins.updates ∧
      (coins.commitHistory crate outcome).spkHistory = coins.spkHistory := by
  unfold commitHistory
  dsimp only
  rw [recordReportedHeights_eq]
  split
  · exact ⟨rfl, rfl⟩
  · exact ⟨rfl, rfl⟩

theorem Grounded.foldHistory
    (grounded : coins.Grounded before)
    (sound : coins.Sound crate)
    (connected : Bool)
    (keeps : coins.KeepsHeld before hist) :
    (coins.foldHistory crate connected hist).Grounded before := by
  have handled := grounded.handleHistoryResponse sound keeps
  have soundAfter := sound.handleHistoryResponse hist
  unfold CoinStore.foldHistory
  dsimp only
  split
  · obtain ⟨updates, histories⟩ :=
      @commitHistory_sources _ _ crate
        (coins.handleHistoryResponse crate hist).1
        (coins.handleHistoryResponse crate hist).2
    exact handled.congr (commitHistory_same soundAfter _).2 updates histories
  · exact handled

omit [PersistenceBackend Backend Txid TxEntry] in
theorem named_receiveTxs
    {updates : List Update}
    {txs : List Transaction}
    {update : Update}
    (listed : update ∈ txs.foldl (receiveTx crate) updates)
    {slot : Txid × Option Transaction}
    (inside : slot ∈ update.txs) :
    ∃ asking ∈ updates, ∃ asked ∈ asking.txs, asked.1 = slot.1 := by
  induction txs generalizing updates with
  | nil =>
      exact ⟨update, listed, slot, inside, rfl⟩
  | cons tx rest inductionHypothesis =>
      obtain ⟨filled, inFilled, filledSlot, inSlots, sameName⟩ :=
        inductionHypothesis listed
      obtain ⟨asking, member, rfl⟩ := List.mem_map.mp inFilled
      obtain ⟨asked, inAsking, rfl⟩ := List.mem_map.mp inSlots
      refine ⟨asking, member, asked, inAsking, ?_⟩
      rw [← sameName]
      split <;> rfl

omit [PersistenceBackend Backend Txid TxEntry] in
theorem stored_insertUpdates
    {updates : List Update}
    {txs : TxStore Backend}
    {txid : Txid}
    (present :
      (updates.foldl (TxStore.insertUpdate crate) txs).get txid ≠ none) :
    txs.get txid ≠ none ∨
      ∃ update ∈ updates, ∃ slot ∈ update.txs, slot.1 = txid := by
  induction updates generalizing txs with
  | nil =>
      exact .inl present
  | cons update rest inductionHypothesis =>
      rcases inductionHypothesis present with first | ⟨later, member, slot⟩
      · cases absent : txs.get txid with
        | some entry =>
            exact .inl (Option.some_ne_none entry)
        | none =>
            obtain ⟨entry, stored⟩ := Option.ne_none_iff_exists'.mp first
            obtain ⟨tx, inside, -⟩ :=
              TxStore.get_insertUpdate_of_none absent stored
            exact .inr ⟨update, List.mem_cons_self, _, inside, rfl⟩
      · exact .inr ⟨later, List.mem_cons_of_mem _ member, slot⟩

theorem Grounded.handleTxsResponse
    (grounded : coins.Grounded before)
    (sound : coins.Sound crate)
    (txs : List Transaction) :
    (coins.handleTxsResponse crate txs).Grounded before := by
  have slots := slotsKeyed_receiveTxs sound.slots txs
  -- Whatever is waited for now was waited for before.
  have heldBefore
      {update : Update}
      (listed : update ∈ txs.foldl (receiveTx crate) coins.updates)
      {slot : Txid × Option Transaction}
      (inside : slot ∈ update.txs) :
      coins.updateInFlight slot.1 = true := by
    obtain ⟨asking, member, asked, inAsking, sameName⟩ :=
      named_receiveTxs listed inside
    exact List.any_eq_true.mpr ⟨asking, member,
      List.any_eq_true.mpr ⟨asked, inAsking, decide_eq_true sameName⟩⟩
  have filled :
      CoinStore.Grounded before
        { coins with
          updates :=
            (applyComplete crate coins.txStore
              (txs.foldl (receiveTx crate) coins.updates)).1
          txStore :=
            (applyComplete crate coins.txStore
              (txs.foldl (receiveTx crate) coins.updates)).2 } := by
    refine ⟨?_, ?_⟩
    · intro txid new present
      rcases stored_insertUpdates present with
        earlier | ⟨update, member, slot, inside, rfl⟩
      · exact grounded.stored txid new earlier
      · exact grounded.held _ new
          (heldBefore (List.mem_of_mem_filter member) inside)
    · intro txid new held
      obtain ⟨update, member, inUpdate⟩ := List.any_eq_true.mp held
      obtain ⟨slot, inside, named⟩ := List.any_eq_true.mp inUpdate
      have sameName : slot.1 = txid := of_decide_eq_true named
      refine grounded.held txid new ?_
      rw [← sameName]
      exact heldBefore (List.mem_of_mem_filter member) inside
  exact filled.congr
    (bare_generate
      (keyed_insertUpdates sound.keyed
        (slots.subset (fun _ => List.mem_of_mem_filter)))) rfl rfl

/-- What a listener folds in a session. -/
inductive SessionStep where
  | history (connected : Bool) (hist : BTreeMap ScriptBuf History)
  /-- A script's status is gone. -/
  | cleared (spk : ScriptBuf)
  | txs (txs : List Transaction)

def sessionStep
    (crate : TxCrate)
    (coins : CoinStore Backend) : SessionStep → CoinStore Backend
  | .history connected hist => coins.foldHistory crate connected hist
  | .cleared spk =>
      (coins.handleHistoryResponse crate
        ((∅ : BTreeMap ScriptBuf History).insert spk [])).2.generate crate
  | .txs txs => coins.handleTxsResponse crate txs

/-- Take the steps one after the other. -/
def session
    (crate : TxCrate)
    (coins : CoinStore Backend)
    (steps : List SessionStep) : CoinStore Backend :=
  steps.foldl (sessionStep crate) coins

/-- The step drops nothing that a pending update still waits for. -/
def DropsNoneHeld
    (before : TxStore Backend)
    (coins : CoinStore Backend) : SessionStep → Prop
  | .history _ hist => coins.KeepsHeld before hist
  | .cleared spk =>
      coins.KeepsHeld before
        ((∅ : BTreeMap ScriptBuf History).insert spk [])
  | .txs _ => True

theorem Sound.sessionStep
    (sound : coins.Sound crate)
    (step : SessionStep) : (coins.sessionStep crate step).Sound crate := by
  cases step with
  | history connected hist =>
      exact (foldHistory_shrinks sound connected hist).1
  | cleared spk =>
      exact (sound.handleHistoryResponse _).generate
  | txs txs =>
      exact sound.handleTxsResponse txs

theorem Grounded.sessionStep
    (grounded : coins.Grounded before)
    (sound : coins.Sound crate)
    {step : SessionStep}
    (keeps : coins.DropsNoneHeld before step) :
    (coins.sessionStep crate step).Grounded before := by
  cases step with
  | history connected hist =>
      exact grounded.foldHistory sound connected keeps
  | cleared spk =>
      have handled := grounded.handleHistoryResponse sound keeps
      exact handled.congr
        (bare_generate (sound.handleHistoryResponse _).keyed) rfl rfl
  | txs txs =>
      exact grounded.handleTxsResponse sound txs

theorem grounded_session
    (grounded : coins.Grounded before)
    (sound : coins.Sound crate)
    {steps : List SessionStep}
    (keeps :
      ∀ earlier next later, steps = earlier ++ next :: later →
        (coins.session crate earlier).DropsNoneHeld before next) :
    (coins.session crate steps).Sound crate ∧
      (coins.session crate steps).Grounded before := by
  induction steps using List.reverseRecOn with
  | nil =>
      exact ⟨sound, grounded⟩
  | append_singleton earlier next inductionHypothesis =>
      obtain ⟨soundBefore, groundedBefore⟩ :=
        inductionHypothesis (fun first step later split =>
          keeps first step (later ++ [next]) (by simp [split]))
      have shape :
          coins.session crate (earlier ++ [next]) =
            (coins.session crate earlier).sessionStep crate next := by
        simp [session]
      rw [shape]
      exact ⟨soundBefore.sessionStep next,
        groundedBefore.sessionStep soundBefore (keeps earlier next [] rfl)⟩

/--
In a session in which no history drops what a pending update holds from the
last script that lists it, every transaction the session stored is in the
latest history of some script.
-/
theorem no_ghosts
    (crate : TxCrate)
    (addressStore : AddressStore)
    (txStore : TxStore Backend)
    (labels : BTreeMap OutPoint String)
    (headerScanner : Bool)
    (keyed : txStore.Keyed crate)
    (steps : List SessionStep)
    (keeps :
      ∀ earlier next later, steps = earlier ++ next :: later →
        ((CoinStore.new addressStore txStore labels headerScanner).session
          crate earlier).DropsNoneHeld txStore next)
    (txid : Txid)
    (learned : txStore.get txid = none)
    (stored :
      ((CoinStore.new addressStore txStore labels headerScanner).session
        crate steps).txStore.get txid ≠ none) :
    ((CoinStore.new addressStore txStore labels headerScanner).session
      crate steps).Listed txid := by
  have started :
      (CoinStore.new addressStore txStore labels headerScanner).Grounded
        txStore := by
    refine ⟨fun query new present => (present new).elim, ?_⟩
    intro query _ held
    cases held
  have sound :
      (CoinStore.new addressStore txStore labels headerScanner).Sound
        crate :=
    ⟨keyed, fun _ listed => nomatch listed⟩
  exact (grounded_session started sound keeps).2.stored txid learned stored

/-- A session that starts with nothing. -/
def sampleSession : CoinStore (RowBackend Txid TxEntry) :=
  CoinStore.new AddressStore.sample ⟨RamStore.empty ⟨∅, []⟩⟩ ∅ true

/-- A transaction is reported and arrives. -/
def reportedAndSent : List SessionStep :=
  [.history true ((∅ : BTreeMap ScriptBuf History).insert 0 [(1, none)]),
    .txs [⟨2, 1, [], [⟨5, 0⟩]⟩]]

/-- A transaction that stays in its history is no ghost. -/
theorem no_ghosts_sent :
    (sampleSession.session TxCrate.sample reportedAndSent).Listed 1 := by
  have empty (txid : Txid) :
      TxStore.get
        (⟨RamStore.empty ⟨∅, []⟩⟩ : TxStore (RowBackend Txid TxEntry))
        txid = none := by
    simp [TxStore.get, RamStore.get, RamStore.empty]
  have stored :
      ((sampleSession.session TxCrate.sample
        reportedAndSent).txStore.get 1).isSome = true := by
    decide +kernel
  have present := Option.isSome_iff_ne_none.mp stored
  unfold sampleSession at present ⊢
  refine no_ghosts TxCrate.sample AddressStore.sample _ ∅ true ?_
    reportedAndSent ?_ 1 (empty 1) present
  · intro txid entry found
    rw [empty] at found
    cases found
  · intro earlier next later split
    cases earlier with
    | nil =>
        -- The first history meets no update.
        cases split
        intro txid _ held
        cases held
    | cons first rest =>
        cases rest with
        | nil =>
            cases split
            exact trivial
        | cons second more =>
            simp [reportedAndSent] at split

/-- Two transactions are reported, and the first is dropped meanwhile. -/
def droppedMeanwhile : List SessionStep :=
  [.history true
      ((∅ : BTreeMap ScriptBuf History).insert 0 [(1, none), (2, none)]),
    .history true ((∅ : BTreeMap ScriptBuf History).insert 0 [(2, none)]),
    .txs [⟨2, 1, [], [⟨5, 0⟩]⟩, ⟨2, 2, [], [⟨5, 0⟩]⟩]]

/-- The dropped transaction is stored when the other one arrives. -/
theorem dropped_is_stored :
    let reached := sampleSession.session TxCrate.sample droppedMeanwhile
    reached.updates = [] ∧
      (reached.txStore.get 1).isSome = true ∧
      ¬ reached.Listed 1 := by
  intro reached
  refine ⟨by decide +kernel, by decide +kernel, ?_⟩
  have histories :
      reached.spkHistory.toList.map (fun row => row.2.last.keys) =
        [[2]] := by
    decide +kernel
  rintro ⟨spk, inLatest⟩
  rw [latest] at inLatest
  cases found : reached.spkHistory[spk]? with
  | none =>
      rw [found] at inLatest
      simp [SpkHistory.new, SpkHistory.last] at inLatest
  | some known =>
      rw [found] at inLatest
      have listed :
          known.last.keys ∈
            reached.spkHistory.toList.map (fun row => row.2.last.keys) :=
        List.mem_map.mpr ⟨(spk, known),
          Std.ExtTreeMap.mem_toList_iff_getElem?_eq_some.mpr found, rfl⟩
      rw [histories, List.mem_singleton] at listed
      have inKeys : (1 : Txid) ∈ known.last.keys :=
        Std.ExtTreeMap.mem_keys.mpr inLatest
      rw [listed] at inKeys
      simp at inKeys

end CoinStore

end Bwk
