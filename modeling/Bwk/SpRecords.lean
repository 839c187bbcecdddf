import Bwk.SpScan

namespace Bwk

/-!
# What a scan records, entry by entry

Every recording loop of the scan touches each coin and each transaction on its
own, so what it leaves of one entry depends on that entry and on the block
alone.
-/

/-- An entry once the time of its block is looked up. -/
def SpTxEntry.stamped (time : Option Nat) (entry : SpTxEntry) : SpTxEntry :=
  match time with
  | some timestamp => { entry with timestamp := some timestamp }
  | none => entry

def SpTxEntry.confirmedAt
    (times : Nat → Option Nat)
    (height : Nat)
    (entry : SpTxEntry) : SpTxEntry :=
  { entry with height := some height }.stamped (times height)

@[simp] theorem SpTxEntry.stamped_txid (time : Option Nat) (entry : SpTxEntry) :
    (entry.stamped time).txid = entry.txid := by
  cases time <;> rfl

@[simp] theorem SpTxEntry.stamped_height
    (time : Option Nat)
    (entry : SpTxEntry) :
    (entry.stamped time).height = entry.height := by
  cases time <;> rfl

section Confirmed

variable (times : Nat → Option Nat) (height : Nat) (entry : SpTxEntry)

@[simp] theorem SpTxEntry.confirmedAt_txid :
    (entry.confirmedAt times height).txid = entry.txid := by
  simp [confirmedAt]

@[simp] theorem SpTxEntry.confirmedAt_height :
    (entry.confirmedAt times height).height = some height := by
  simp [confirmedAt]

/-- Confirming a transaction twice in one block changes nothing more. -/
@[simp] theorem SpTxEntry.confirmedAt_confirmedAt :
    (entry.confirmedAt times height).confirmedAt times height =
      entry.confirmedAt times height := by
  unfold confirmedAt SpTxEntry.stamped
  cases times height <;> rfl

end Confirmed

namespace ScanStores

variable (times : Nat → Option Nat)

variable (existing : Option SpCoinEntry)
variable (outputs : BTreeMap OutPoint OwnedOutput) (blockHash : BlockHash)
variable (output : OwnedOutput) (stores : ScanStores)

theorem spendStatus_keepStatus
    (unspent : output.spendStatus = .unspent) :
    (keepStatus existing output).spendStatus =
      (existing.map SpCoinEntry.status).getD .unspent := by
  cases existing with
  | none =>
      exact unspent
  | some entry =>
      by_cases idle : entry.status = .unspent
      · simp [keepStatus, idle, unspent]
      · simp [keepStatus, idle]

@[simp] theorem blockheight_keepStatus :
    (keepStatus existing output).blockheight = output.blockheight := by
  unfold keepStatus
  split
  · rfl
  · split <;> rfl

theorem get_coins_recordOutputs
    (query : OutPoint) :
    (recordOutputs times outputs stores).coins.get query =
      match outputs[query]? with
      | some output =>
          some ⟨query, keepStatus (stores.coins.get query) output⟩
      | none => stores.coins.get query := by
  have looked := BTreeMap.look_foldl_toList outputs
    recordOutput
    SpCoinStore.get
    (fun outpoint output stored =>
      some ⟨outpoint, keepStatus stored output⟩)
    (fun coins outpoint output _ => by simp [recordOutput])
    (fun coins outpoint output query _ different => by
      simp [recordOutput, different])
    stores.coins query
  have shape :
      (recordOutputs times outputs stores).coins.get query =
        (outputs.toList.foldl recordOutput stores.coins).get query := by
    simp [recordOutputs]
  rw [shape, looked]
  cases outputs[query]? <;> rfl

/-- The height each funding transaction of a block is confirmed at. -/
def fundingHeights
    (outputs : BTreeMap OutPoint OwnedOutput) : BTreeMap Txid Nat :=
  outputs.toList.foldl fundingHeight ∅

theorem getElem?_fundingHeight
    (byTx : BTreeMap Txid Nat)
    (found : OutPoint × OwnedOutput)
    (txid : Txid) :
    (fundingHeight byTx found)[txid]? =
      if found.1.txid = txid then
        byTx[txid]?.or found.2.blockheight
      else
        byTx[txid]? := by
  unfold fundingHeight
  cases found.2.blockheight with
  | none =>
      simp
  | some height =>
      dsimp only
      rw [Std.ExtTreeMap.getElem?_insertIfNew]
      by_cases same : found.1.txid = txid
      · subst same
        cases stored : byTx[found.1.txid]? with
        | none =>
            have absent := BTreeMap.not_mem_iff_getElem?.mpr stored
            simp [absent]
        | some kept =>
            have present : found.1.txid ∈ byTx := by
              rw [BTreeMap.mem_iff_getElem?]
              exact ⟨kept, stored⟩
            simp [present]
      · simp [same]

theorem blockheight_of_fundingHeights
    {outputs : BTreeMap OutPoint OwnedOutput}
    {txid : Txid}
    {height : Nat}
    (found : (fundingHeights outputs)[txid]? = some height) :
    ∃ (outpoint : OutPoint) (output : OwnedOutput),
      outputs[outpoint]? = some output ∧
      outpoint.txid = txid ∧ output.blockheight = some height := by
  have general :
      ∀ (entries : List (OutPoint × OwnedOutput)) (byTx : BTreeMap Txid Nat),
        (entries.foldl fundingHeight byTx)[txid]? = some height →
        byTx[txid]? = some height ∨
          ∃ entry ∈ entries, entry.1.txid = txid ∧
            entry.2.blockheight = some height := by
    intro entries
    induction entries with
    | nil =>
        exact fun _ stored => Or.inl stored
    | cons entry rest inductionHypothesis =>
        intro byTx stored
        rcases inductionHypothesis _ stored with earlier | later
        · rw [getElem?_fundingHeight] at earlier
          split at earlier
          · next same =>
              rcases Option.or_eq_some_iff.mp earlier with kept | ⟨_, first⟩
              · exact Or.inl kept
              · exact Or.inr
                  ⟨entry, List.mem_cons_self, same, first⟩
          · exact Or.inl earlier
        · obtain ⟨entry, member, same, first⟩ := later
          exact Or.inr
            ⟨entry, List.mem_cons_of_mem _ member, same, first⟩
  rcases general _ _ found with impossible | ⟨entry, member, same, first⟩
  · simp at impossible
  · exact ⟨entry.1, entry.2,
      Std.ExtTreeMap.mem_toList_iff_getElem?_eq_some.mp member, same, first⟩

theorem no_blockheight_of_fundingHeights
    {outputs : BTreeMap OutPoint OwnedOutput}
    {txid : Txid}
    (absent : (fundingHeights outputs)[txid]? = none)
    {outpoint : OutPoint}
    {output : OwnedOutput}
    (listed : outputs[outpoint]? = some output)
    (funds : outpoint.txid = txid) :
    output.blockheight = none := by
  have general :
      ∀ (entries : List (OutPoint × OwnedOutput)) (byTx : BTreeMap Txid Nat),
        (entries.foldl fundingHeight byTx)[txid]? = none →
        byTx[txid]? = none ∧
          ∀ entry ∈ entries, entry.1.txid = txid →
            entry.2.blockheight = none := by
    intro entries
    induction entries with
    | nil =>
        exact fun _ missing => ⟨missing, by simp⟩
    | cons entry rest inductionHypothesis =>
        intro byTx missing
        obtain ⟨first, later⟩ := inductionHypothesis _ missing
        rw [getElem?_fundingHeight] at first
        split at first
        · next same =>
            rw [Option.or_eq_none_iff] at first
            refine ⟨first.1, ?_⟩
            intro other member funds
            rcases List.mem_cons.mp member with rfl | inRest
            · exact first.2
            · exact later other inRest funds
        · next different =>
            refine ⟨first, ?_⟩
            intro other member funds
            rcases List.mem_cons.mp member with rfl | inRest
            · exact absurd funds different
            · exact later other inRest funds
  exact (general _ _ absent).2 (outpoint, output)
    (Std.ExtTreeMap.mem_toList_iff_getElem?_eq_some.mpr listed) funds

@[simp] theorem get_stamp
    (height : Nat)
    (txid query : Txid)
    (txs : SpTxStore) :
    (stamp times height txid txs).get query =
      if txid = query then
        (txs.get query).map (SpTxEntry.stamped (times height))
      else
        txs.get query := by
  unfold stamp SpTxEntry.stamped
  cases times height with
  | some timestamp =>
      simp
  | none =>
      simp

theorem get_recordFunding
    (txs : SpTxStore)
    (txid query : Txid)
    (height : Nat) :
    (recordFunding times txs (txid, height)).get query =
      if txid = query then
        some (((txs.get query).getD (SpTxEntry.new query)).confirmedAt
          times height)
      else
        txs.get query := by
  unfold recordFunding
  by_cases same : txid = query
  · subst same
    cases stored : txs.get txid with
    | some entry =>
        simp [stored, SpTxEntry.confirmedAt]
    | none =>
        simp [SpTxEntry.confirmedAt, SpTxEntry.new]
  · cases txs.get txid with
    | some entry =>
        simp [same]
    | none =>
        simp [same, SpTxEntry.new]

theorem get_txs_recordOutputs
    (query : Txid) :
    (recordOutputs times outputs stores).txs.get query =
      match (fundingHeights outputs)[query]? with
      | some height =>
          some (((stores.txs.get query).getD (SpTxEntry.new query)).confirmedAt
            times height)
      | none => stores.txs.get query := by
  have looked := BTreeMap.look_foldl_toList (fundingHeights outputs)
    (recordFunding times)
    SpTxStore.get
    (fun txid height stored =>
      some ((stored.getD (SpTxEntry.new txid)).confirmedAt times height))
    (fun txs txid height _ => by simp [get_recordFunding])
    (fun txs txid height query _ different => by
      simp [get_recordFunding, different])
    stores.txs query
  have shape :
      (recordOutputs times outputs stores).txs.get query =
        ((fundingHeights outputs).toList.foldl (recordFunding times)
          stores.txs).get query := by
    simp [recordOutputs, fundingHeights]
  rw [shape, looked]
  cases (fundingHeights outputs)[query]? <;> rfl

theorem named_recordOutputs
    {stores : ScanStores}
    (named : stores.txs.Named) :
    (recordOutputs times outputs stores).txs.Named := by
  intro txid entry stored
  rw [get_txs_recordOutputs] at stored
  split at stored
  · cases stored
    cases existing : stores.txs.get txid with
    | none =>
        simp [SpTxEntry.new]
    | some entry =>
        simpa using named txid entry existing
  · exact named txid entry stored

theorem get_coins_recordInputs
    (height : Nat)
    (inputs : BTreeSet OutPoint)
    (stores : ScanStores)
    (query : OutPoint) :
    (recordInputs times blockHash height inputs stores).coins.get query =
      if query ∈ inputs then
        (stores.coins.get query).map
          (fun entry => entry.withStatus (entry.status.confirmed blockHash))
      else
        stores.coins.get query := by
  have looked := BTreeSet.look_foldl_toList inputs
    (recordInput blockHash)
    (fun progress outpoint => progress.1.get outpoint)
    (fun _ stored => stored.map
      (fun entry => entry.withStatus (entry.status.confirmed blockHash)))
    (fun progress outpoint => by
      simp [recordInput, SpCoinStore.confirmSpend])
    (fun progress outpoint query different => by
      simp [recordInput, SpCoinStore.confirmSpend, different])
    (stores.coins, []) query
  rw [← looked]
  unfold recordInputs
  dsimp only
  split <;> simp

theorem spender_recordInput
    (progress : SpCoinStore × List Txid)
    (outpoint query : OutPoint) :
    ((recordInput blockHash progress outpoint).1.get query).bind
        (fun entry => entry.status.spender) =
      (progress.1.get query).bind (fun entry => entry.status.spender) := by
  simp only [recordInput, SpCoinStore.confirmSpend, SpCoinStore.get_setStatus]
  split
  · cases progress.1.get query <;> simp
  · rfl

theorem mem_confirmedTxids
    (txid : Txid)
    (outpoints : List OutPoint)
    (progress : SpCoinStore × List Txid) :
    txid ∈ (outpoints.foldl (recordInput blockHash) progress).2 ↔
      txid ∈ progress.2 ∨
        ∃ outpoint ∈ outpoints,
          (progress.1.get outpoint).bind (fun entry => entry.status.spender) =
            some txid := by
  induction outpoints generalizing progress with
  | nil =>
      simp
  | cons outpoint rest inductionHypothesis =>
      have first :
          txid ∈ (recordInput blockHash progress outpoint).2 ↔
            txid ∈ progress.2 ∨
              (progress.1.get outpoint).bind
                  (fun entry => entry.status.spender) = some txid := by
        unfold recordInput
        cases progress.1.get outpoint with
        | none =>
            simp
        | some entry =>
            simp only [Option.map_some, Option.bind_some]
            generalize entry.status = status
            cases status with
            | spent spender hash =>
                simp [OutputSpendStatus.spender, eq_comm]
            | unspent | mined hash =>
                simp [OutputSpendStatus.spender]
      rw [List.foldl_cons, inductionHypothesis, first]
      simp only [spender_recordInput, List.exists_mem_cons_iff, or_assoc]

def SpentBy (coins : SpCoinStore) (outpoint : OutPoint) (txid : Txid) : Prop :=
  (coins.get outpoint).bind (fun entry => entry.status.spender) = some txid

instance (coins : SpCoinStore) (outpoint : OutPoint) (txid : Txid) :
    Decidable (SpentBy coins outpoint txid) :=
  inferInstanceAs (Decidable (_ = _))

theorem get_foldl_confirmTx
    (height : Nat)
    (txids : List Txid)
    (txs : SpTxStore)
    (query : Txid) :
    (txids.foldl (confirmTx times height) txs).get query =
      if query ∈ txids then
        (txs.get query).map (SpTxEntry.confirmedAt times height)
      else
        txs.get query := by
  have single :
      ∀ (txs : SpTxStore) (txid : Txid),
        (confirmTx times height txs txid).get query =
          if txid = query then
            (txs.get query).map (SpTxEntry.confirmedAt times height)
          else
            txs.get query := by
    intro txs txid
    unfold confirmTx
    by_cases same : txid = query
    · simp only [get_stamp, SpTxStore.get_updateHeight, if_pos same,
        Option.map_map]
      rfl
    · simp [same]
  induction txids generalizing txs with
  | nil =>
      simp
  | cons txid rest inductionHypothesis =>
      rw [List.foldl_cons, inductionHypothesis, single]
      by_cases same : txid = query
      · subst same
        by_cases again : txid ∈ rest
        · cases txs.get txid <;> simp [again]
        · simp [again]
      · simp [same, Ne.symm same]

theorem get_txs_recordInputs
    (height : Nat)
    (inputs : BTreeSet OutPoint)
    (stores : ScanStores)
    (query : Txid)
    [Decidable (∃ outpoint ∈ inputs, SpentBy stores.coins outpoint query)] :
    (recordInputs times blockHash height inputs stores).txs.get query =
      if ∃ outpoint ∈ inputs, SpentBy stores.coins outpoint query then
        (stores.txs.get query).map (SpTxEntry.confirmedAt times height)
      else
        stores.txs.get query := by
  have confirmed :=
    mem_confirmedTxids blockHash query inputs.toList (stores.coins, [])
  simp only [List.not_mem_nil, false_or, Std.ExtTreeSet.mem_toList]
    at confirmed
  unfold recordInputs
  dsimp only
  split
  · next none_ =>
      rw [List.isEmpty_iff.mp none_] at confirmed
      rw [if_neg (fun spent => by simpa using confirmed.mpr spent)]
  · rw [SpTxStore.get_persist, get_foldl_confirmTx]
    exact if_congr confirmed rfl rfl

theorem named_recordInputs
    (height : Nat)
    (inputs : BTreeSet OutPoint)
    {stores : ScanStores}
    (named : stores.txs.Named) :
    (recordInputs times blockHash height inputs stores).txs.Named := by
  classical
  intro txid entry stored
  rw [get_txs_recordInputs] at stored
  split at stored
  · obtain ⟨existing, found, rfl⟩ := Option.map_eq_some_iff.mp stored
    simpa using named txid existing found
  · exact named txid entry stored

@[simp] theorem state_recordInputs
    (height : Nat)
    (inputs : BTreeSet OutPoint)
    (stores : ScanStores) :
    (recordInputs times blockHash height inputs stores).state =
      stores.state := by
  unfold recordInputs
  dsimp only
  split <;> rfl

end ScanStores

/-- What stamping the missing block times leaves of an entry. -/
def SpTxEntry.restamped
    (times : Nat → Option Nat)
    (entry : SpTxEntry) : SpTxEntry :=
  if entry.timestamp.isSome then
    entry
  else
    entry.stamped (entry.height.bind times)

@[simp] theorem SpTxEntry.restamped_txid
    (times : Nat → Option Nat)
    (entry : SpTxEntry) :
    (entry.restamped times).txid = entry.txid := by
  unfold restamped
  split <;> simp

@[simp] theorem SpTxEntry.restamped_height
    (times : Nat → Option Nat)
    (entry : SpTxEntry) :
    (entry.restamped times).height = entry.height := by
  unfold restamped
  split <;> simp

theorem SpTxEntry.restamped_of_unconfirmed
    (times : Nat → Option Nat)
    {entry : SpTxEntry}
    (unconfirmed : entry.height = none) :
    entry.restamped times = entry := by
  unfold restamped
  split
  · rfl
  · rw [unconfirmed]
    rfl

theorem SpTxStore.get_restampMissingTimestamps
    {txs : SpTxStore}
    (named : txs.Named)
    (times : Nat → Option Nat)
    (query : Txid) :
    (txs.restampMissingTimestamps times).get query =
      (txs.get query).map (SpTxEntry.restamped times) := by
  have round :
      ∀ (progress : SpTxStore × Bool) txid (entry : SpTxEntry) query,
        entry.txid = txid →
        (SpTxStore.restampTx times progress (txid, entry)).1.get query =
          if txid = query then
            if entry.timestamp.isSome then
              progress.1.get query
            else
              (progress.1.get query).map
                (SpTxEntry.stamped (entry.height.bind times))
          else
            progress.1.get query := by
    intro progress txid entry query own
    unfold SpTxStore.restampTx SpTxEntry.stamped
    subst own
    split
    · simp
    · cases entry.height.bind times with
      | none =>
          simp
      | some time =>
          simp
  have looked := BTreeMap.look_foldl_toList txs.store.cache
    (SpTxStore.restampTx times)
    (fun progress txid => progress.1.get txid)
    (fun _ entry stored =>
      if entry.timestamp.isSome then
        stored
      else
        stored.map (SpTxEntry.stamped (entry.height.bind times)))
    (fun progress txid entry found => by
      rw [round progress txid entry txid (named txid entry found), if_pos rfl])
    (fun progress txid entry query found different => by
      rw [round progress txid entry query (named txid entry found),
        if_neg different])
    (txs, false) query
  have shape :
      (txs.restampMissingTimestamps times).get query =
        (txs.store.cache.toList.foldl (SpTxStore.restampTx times)
          (txs, false)).1.get query := by
    unfold SpTxStore.restampMissingTimestamps
    dsimp only
    split
    · exact SpTxStore.get_persist ..
    · rfl
  rw [shape, looked]
  cases stored : txs.store.cache[query]? with
  | none =>
      have absent : txs.get query = none := stored
      simp [absent]
  | some entry =>
      have found : txs.get query = some entry := stored
      simp only [found, SpTxEntry.restamped, Option.map_some]
      split <;> rfl

end Bwk
