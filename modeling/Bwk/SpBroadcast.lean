import Bwk.SpRecords

namespace Bwk

/-!
# Broadcasting next to a running scan

`sp/src/account/mod.rs`: what a broadcast records of one of our own
transactions, against what the scan records of the block that confirms it.
The two run on different threads and take the locks of the stores in turn, so
either may come first, and a broadcast may be recorded again.
-/

/-- Why a spend cannot be recorded. -/
inductive AccountError where
  | missingInputCoin (outpoint : OutPoint)
  | inputNotOwned (outpoint : OutPoint)
  | receiving
  deriving Repr, DecidableEq

/-- What a broadcast needs of an electrum sub-account. -/
structure SubAccountSpendRecorder where
  scripts : BTreeSet ScriptBuf
  getCoin : OutPoint → Option TxOut

/-- The keys of the wallet, as far as they decide what it owns. -/
structure SpReceiver where
  /-- The taproot output key of a script. -/
  outputKey : ScriptBuf → Option Nat
  /-- The output keys of a transaction that are ours: label and tweak. -/
  ownedKeys :
    Transaction → List TxOut →
      Except AccountError (BTreeMap Nat (Option Nat × Nat))

/-- What a broadcast records of a transaction. -/
structure SpendAnalysis where
  spInputs : List OutPoint
  subAccounts : BTreeSet Nat
  /-- The outputs paying our keys, unconfirmed. -/
  spOutputs : BTreeMap OutPoint OwnedOutput

/-- The value of the outputs paying our keys. -/
def SpendAnalysis.spChange (analysis : SpendAnalysis) : Nat :=
  (analysis.spOutputs.toList.map (fun owned => owned.2.amount)).sum

section Analysis

variable (crate : TxCrate) (spReceiver : SpReceiver)

/-- One output of a transaction, if it pays one of our keys. -/
def ownedOutput
    (txid : Txid)
    (ownedKeys : BTreeMap Nat (Option Nat × Nat))
    (output : TxOut × Nat) : Option (OutPoint × OwnedOutput) := do
  let key ← spReceiver.outputKey output.1.scriptPubkey
  let (label, tweak) ← ownedKeys[key]?
  some (⟨txid, output.2⟩,
    { blockheight := none
      tweak := tweak
      amount := output.1.value
      script := output.1.scriptPubkey
      label := label
      spendStatus := .unspent })

/-- The outputs of a transaction paying our keys. -/
def spOwnedOutputs
    (tx : Transaction)
    (prevouts : List TxOut) :
    Except AccountError (BTreeMap OutPoint OwnedOutput) :=
  match spReceiver.ownedKeys tx prevouts with
  | .error reason => .error reason
  | .ok ownedKeys =>
      .ok (BTreeMap.insertAll ∅
        (tx.output.zipIdx.filterMap
          (ownedOutput spReceiver (crate.computeTxid tx) ownedKeys)))

def owners
    (subAccounts : List SubAccountSpendRecorder)
    (script : ScriptBuf) : List Nat :=
  subAccounts.zipIdx.filterMap
    (fun sub => if script ∈ sub.1.scripts then some sub.2 else none)

def resolveInputs
    (coins : SpCoinStore)
    (subAccounts : List SubAccountSpendRecorder) :
    List TxIn → List OutPoint × List Nat × List TxOut →
      Except AccountError (List OutPoint × List Nat × List TxOut)
  | [], resolved => .ok resolved
  | input :: rest, (spInputs, owned, prevouts) =>
      let outpoint := input.previousOutput
      match coins.get outpoint with
      | some coin =>
          resolveInputs coins subAccounts rest
            (spInputs ++ [outpoint], owned,
              prevouts ++ [⟨coin.output.amount, coin.output.script⟩])
      | none =>
          match subAccounts.findSome? (fun sub => sub.getCoin outpoint) with
          | none => .error (.missingInputCoin outpoint)
          | some txout =>
              let spenders := owners subAccounts txout.scriptPubkey
              if spenders.isEmpty then
                .error (.inputNotOwned outpoint)
              else
                resolveInputs coins subAccounts rest
                  (spInputs, owned ++ spenders, prevouts ++ [txout])

def analyzeUnconfirmedSpend
    (coins : SpCoinStore)
    (subAccounts : List SubAccountSpendRecorder)
    (tx : Transaction) : Except AccountError SpendAnalysis :=
  match resolveInputs coins subAccounts tx.input ([], [], []) with
  | .error reason => .error reason
  | .ok (spInputs, owned, prevouts) =>
      match spOwnedOutputs crate spReceiver tx prevouts with
      | .error reason => .error reason
      | .ok spOutputs =>
          .ok
            { spInputs := spInputs
              subAccounts :=
                Std.ExtTreeSet.ofList (owned ++
                  tx.output.flatMap
                    (fun output => owners subAccounts output.scriptPubkey))
              spOutputs := spOutputs }

end Analysis

structure SpendAnalysis.Describes
    (crate : TxCrate)
    (coins : SpCoinStore)
    (tx : Transaction)
    (analysis : SpendAnalysis) : Prop where
  inputs :
    ∀ outpoint, outpoint ∈ analysis.spInputs ↔
      (∃ input ∈ tx.input, input.previousOutput = outpoint) ∧
        coins.get outpoint ≠ none
  funds :
    ∀ (outpoint : OutPoint) (output : OwnedOutput),
      analysis.spOutputs[outpoint]? = some output →
      outpoint.txid = crate.computeTxid tx
  unspent :
    ∀ (outpoint : OutPoint) (output : OwnedOutput),
      analysis.spOutputs[outpoint]? = some output →
      output.spendStatus = .unspent

variable {subAccounts : List SubAccountSpendRecorder}

theorem mem_resolveInputs
    {coins : SpCoinStore}
    {inputs : List TxIn}
    {before after : List OutPoint × List Nat × List TxOut}
    (resolved :
      resolveInputs coins subAccounts inputs before = .ok after)
    (outpoint : OutPoint) :
    outpoint ∈ after.1 ↔
      outpoint ∈ before.1 ∨
        (∃ input ∈ inputs, input.previousOutput = outpoint) ∧
          coins.get outpoint ≠ none := by
  induction inputs generalizing before with
  | nil =>
      cases resolved
      simp
  | cons input rest inductionHypothesis =>
      obtain ⟨spInputs, owned, prevouts⟩ := before
      simp only [resolveInputs] at resolved
      split at resolved
      · next coin held =>
          rw [inductionHypothesis resolved]
          by_cases same : input.previousOutput = outpoint
          · subst same
            simp [held]
          · simp [same, Ne.symm same]
      · next missing =>
          have elsewhere :
              coins.get outpoint ≠ none →
                input.previousOutput ≠ outpoint := by
            rintro held rfl
            exact held missing
          split at resolved
          · cases resolved
          · split at resolved
            · cases resolved
            · rw [inductionHypothesis resolved]
              simp only [List.exists_mem_cons_iff]
              grind

theorem describes_of_analyze
    {crate : TxCrate}
    {spReceiver : SpReceiver}
    {coins : SpCoinStore}
    {tx : Transaction}
    {analysis : SpendAnalysis}
    (analyzed :
      analyzeUnconfirmedSpend crate spReceiver coins subAccounts tx =
        .ok analysis) :
    analysis.Describes crate coins tx := by
  unfold analyzeUnconfirmedSpend at analyzed
  split at analyzed
  · cases analyzed
  · next spInputs owned prevouts resolved =>
      split at analyzed
      · cases analyzed
      · next spOutputs derived =>
          cases analyzed
          unfold spOwnedOutputs at derived
          split at derived
          · cases derived
          · next ownedKeys scanned =>
              cases derived
              have shape :
                  ∀ (outpoint : OutPoint) (output : OwnedOutput),
                    (BTreeMap.insertAll ∅
                      (tx.output.zipIdx.filterMap
                        (ownedOutput spReceiver (crate.computeTxid tx)
                          ownedKeys)))[outpoint]? = some output →
                    outpoint.txid = crate.computeTxid tx ∧
                      output.spendStatus = .unspent := by
                intro outpoint output found
                rcases BTreeMap.mem_of_getElem?_insertAll found with
                  listed | impossible
                · obtain ⟨item, _, made⟩ := List.mem_filterMap.mp listed
                  simp only [ownedOutput, Option.bind_eq_bind,
                    Option.bind_eq_some_iff, Option.some.injEq,
                    Prod.mk.injEq] at made
                  obtain ⟨_, _, _, _, rfl, rfl⟩ := made
                  exact ⟨rfl, rfl⟩
                · simp at impossible
              exact
                { inputs := fun outpoint => by
                    simpa using mem_resolveInputs resolved outpoint
                  funds := fun outpoint output found =>
                    (shape outpoint output found).1
                  unspent := fun outpoint output found =>
                    (shape outpoint output found).2 }

namespace ScanStores

/-- A scan that already found an output holds the confirmed entry. -/
def insertNew
    (coins : SpCoinStore)
    (owned : OutPoint × OwnedOutput) : SpCoinStore :=
  if (coins.get owned.1).isSome then coins else coins.insert owned.1 owned.2

/-- The entry of a transaction once its body and its change are known. -/
def broadcastEntry
    (txid : Txid)
    (tx : Transaction)
    (change : Nat)
    (existing : Option SpTxEntry) : SpTxEntry :=
  let entry := existing.getD (SpTxEntry.withTx txid tx)
  { entry with tx := some (entry.tx.getD tx), change := change }

/-- Record a just-broadcast transaction as unconfirmed. -/
def applyUnconfirmedSpend
    (crate : TxCrate)
    (tx : Transaction)
    (analysis : SpendAnalysis)
    (stores : ScanStores) : ScanStores :=
  let txid := crate.computeTxid tx
  let coins :=
    if !analysis.spInputs.isEmpty || !analysis.spOutputs.isEmpty then
      let marked :=
        analysis.spInputs.foldl
          (fun coins outpoint => coins.markSpent outpoint txid) stores.coins
      (analysis.spOutputs.toList.foldl insertNew marked).persist
    else
      stores.coins
  let txs :=
    if !analysis.spInputs.isEmpty || analysis.spChange > 0 then
      (stores.txs.insert
        (broadcastEntry txid tx analysis.spChange
          (stores.txs.get txid))).persist
    else
      stores.txs
  { stores with coins := coins, txs := txs }

/-- The outputs of a transaction, found in a block. -/
def minedOutputs
    (height : Nat)
    (analysis : SpendAnalysis) : BTreeMap OutPoint OwnedOutput :=
  analysis.spOutputs.map
    (fun _ output => { output with blockheight := some height })

/-- Record the block that confirms a transaction: what the receive pass and
the spend sweep each record of it. -/
def recordMined
    (times : Nat → Option Nat)
    (height : Nat)
    (blockHash : BlockHash)
    (analysis : SpendAnalysis)
    (stores : ScanStores) : ScanStores :=
  let outputs := minedOutputs height analysis
  let spent : BTreeSet OutPoint := Std.ExtTreeSet.ofList analysis.spInputs
  let received :=
    if outputs.isEmpty then stores else recordOutputs times outputs stores
  if spent.isEmpty then
    received
  else
    recordInputs times blockHash height spent received

section Broadcast

variable (crate : TxCrate) (tx : Transaction) (analysis : SpendAnalysis)

theorem get_foldl_markSpent
    (txid : Txid)
    (outpoints : List OutPoint)
    (coins : SpCoinStore)
    (query : OutPoint) :
    (outpoints.foldl
        (fun coins outpoint => coins.markSpent outpoint txid) coins).get query =
      if query ∈ outpoints then
        (coins.get query).map (fun entry => entry.withStatus (.spent txid none))
      else
        coins.get query := by
  induction outpoints generalizing coins with
  | nil =>
      simp
  | cons outpoint rest inductionHypothesis =>
      rw [List.foldl_cons, inductionHypothesis]
      simp only [SpCoinStore.markSpent, SpCoinStore.get_setStatus]
      by_cases same : outpoint = query
      · subst same
        cases coins.get outpoint with
        | none =>
            simp
        | some entry =>
            by_cases again : outpoint ∈ rest
            · simp [again, SpCoinEntry.withStatus]
            · simp [again]
      · simp [same, Ne.symm same]

theorem get_foldl_insertNew
    (outputs : BTreeMap OutPoint OwnedOutput)
    (coins : SpCoinStore)
    (query : OutPoint) :
    (outputs.toList.foldl insertNew coins).get query =
      (coins.get query).or (outputs[query]?.map (⟨query, ·⟩)) := by
  have looked := BTreeMap.look_foldl_toList outputs
    insertNew
    SpCoinStore.get
    (fun outpoint output stored => stored.or (some ⟨outpoint, output⟩))
    (fun coins outpoint output _ => by
      unfold insertNew
      cases stored : coins.get outpoint <;> simp [stored])
    (fun coins outpoint output query _ different => by
      unfold insertNew
      split <;> simp [different])
    coins query
  rw [looked]
  cases outputs[query]? <;> simp

theorem get_coins_applyUnconfirmedSpend
    (stores : ScanStores)
    (query : OutPoint) :
    (applyUnconfirmedSpend crate tx analysis stores).coins.get query =
      (if query ∈ analysis.spInputs then
        (stores.coins.get query).map
          (fun entry => entry.withStatus (.spent (crate.computeTxid tx) none))
      else
        stores.coins.get query).or
        (analysis.spOutputs[query]?.map (⟨query, ·⟩)) := by
  unfold applyUnconfirmedSpend
  dsimp only
  split
  · rw [SpCoinStore.get_persist, get_foldl_insertNew, get_foldl_markSpent]
  · next idle =>
      simp only [Bool.or_eq_true, Bool.not_eq_true', not_or,
        Bool.not_eq_false, List.isEmpty_iff] at idle
      have noOutput : analysis.spOutputs[query]? = none := by
        rw [Std.ExtTreeMap.isEmpty_iff.mp idle.2]
        simp
      simp [idle.1, noOutput]

/-- A broadcast has something to say about its own transaction. -/
def Announces : Prop :=
  analysis.spInputs ≠ [] ∨ analysis.spChange > 0

instance : Decidable (Announces analysis) :=
  inferInstanceAs (Decidable (_ ∨ _))

theorem broadcastEntry_txid
    {txid : Txid}
    {existing : Option SpTxEntry}
    (named : ∀ entry, existing = some entry → entry.txid = txid)
    (change : Nat) :
    (broadcastEntry txid tx change existing).txid = txid := by
  cases existing with
  | none =>
      rfl
  | some entry =>
      exact named entry rfl

theorem get_txs_applyUnconfirmedSpend
    {stores : ScanStores}
    (named : stores.txs.Named)
    (query : Txid) :
    (applyUnconfirmedSpend crate tx analysis stores).txs.get query =
      if Announces analysis ∧ crate.computeTxid tx = query then
        some (broadcastEntry query tx analysis.spChange
          (stores.txs.get query))
      else
        stores.txs.get query := by
  have own := broadcastEntry_txid tx
    (fun entry stored => named (crate.computeTxid tx) entry stored)
    analysis.spChange
  unfold applyUnconfirmedSpend
  dsimp only
  split
  · next announces =>
      have announced : Announces analysis := by
        simpa [Announces, List.isEmpty_iff] using announces
      rw [SpTxStore.get_persist, SpTxStore.get_insert, own]
      by_cases same : crate.computeTxid tx = query
      · subst same
        simp [announced]
      · simp [same]
  · next quiet =>
      have silent : ¬ Announces analysis := by
        simpa [Announces, List.isEmpty_iff] using quiet
      simp [silent]

end Broadcast

section Mined

variable
    (times : Nat → Option Nat)
    (height : Nat)
    (blockHash : BlockHash)
    (analysis : SpendAnalysis)

@[simp] theorem getElem?_minedOutputs (query : OutPoint) :
    (minedOutputs height analysis)[query]? =
      analysis.spOutputs[query]?.map
        (fun output => { output with blockheight := some height }) := by
  simp [minedOutputs]

theorem get_coins_received (stores : ScanStores) (query : OutPoint) :
    (if (minedOutputs height analysis).isEmpty then stores
      else recordOutputs times (minedOutputs height analysis)
        stores).coins.get query =
      match analysis.spOutputs[query]? with
      | some output =>
          some ⟨query, keepStatus (stores.coins.get query)
            { output with blockheight := some height }⟩
      | none => stores.coins.get query := by
  split
  · next idle =>
      have noOutput : (minedOutputs height analysis)[query]? = none := by
        rw [Std.ExtTreeMap.isEmpty_iff.mp idle]
        simp
      rw [getElem?_minedOutputs, Option.map_eq_none_iff] at noOutput
      rw [noOutput]
  · rw [get_coins_recordOutputs, getElem?_minedOutputs]
    cases analysis.spOutputs[query]? <;> rfl

variable {coins : SpCoinStore}

theorem fundingHeights_minedOutputs
    {crate : TxCrate}
    {tx : Transaction}
    (describes : analysis.Describes crate coins tx)
    (query : Txid) :
    (fundingHeights (minedOutputs height analysis))[query]? =
      if analysis.spOutputs.isEmpty = false ∧ crate.computeTxid tx = query then
        some height
      else
        none := by
  cases found : (fundingHeights (minedOutputs height analysis))[query]? with
  | some confirmed =>
      obtain ⟨outpoint, output, listed, funds, mined⟩ :=
        blockheight_of_fundingHeights found
      rw [getElem?_minedOutputs, Option.map_eq_some_iff] at listed
      obtain ⟨owned, ours, rfl⟩ := listed
      cases mined
      have present : analysis.spOutputs.isEmpty = false := by
        rw [Std.ExtTreeMap.isEmpty_eq_false_iff]
        intro empty
        simp [empty] at ours
      rw [if_pos ⟨present, (describes.funds _ _ ours).symm.trans funds⟩]
  | none =>
      rw [if_neg]
      rintro ⟨present, same⟩
      rw [Std.ExtTreeMap.isEmpty_eq_false_iff,
        Std.ExtTreeMap.eq_empty_iff_forall_not_mem, not_forall] at present
      obtain ⟨outpoint, held⟩ := present
      have member := not_not.mp held
      obtain ⟨owned, ours⟩ := BTreeMap.mem_iff_getElem?.mp member
      have mined : (minedOutputs height analysis)[outpoint]? =
          some { owned with blockheight := some height } := by
        simp [ours]
      have unconfirmed := no_blockheight_of_fundingHeights found mined
        ((describes.funds _ _ ours).trans same)
      cases unconfirmed

theorem get_txs_received
    {crate : TxCrate}
    {tx : Transaction}
    (describes : analysis.Describes crate coins tx)
    (stores : ScanStores)
    (query : Txid) :
    (if (minedOutputs height analysis).isEmpty then stores
      else recordOutputs times (minedOutputs height analysis)
        stores).txs.get query =
      if analysis.spOutputs.isEmpty = false ∧ crate.computeTxid tx = query then
        some (((stores.txs.get query).getD (SpTxEntry.new query)).confirmedAt
          times height)
      else
        stores.txs.get query := by
  have sameEmpty :
      (minedOutputs height analysis).isEmpty = analysis.spOutputs.isEmpty := by
    rw [Bool.eq_iff_iff, Std.ExtTreeMap.isEmpty_iff,
      Std.ExtTreeMap.isEmpty_iff]
    exact Std.ExtTreeMap.map_eq_empty_iff
  rw [sameEmpty]
  cases empty : analysis.spOutputs.isEmpty with
  | true =>
      simp
  | false =>
      have heights := fundingHeights_minedOutputs height analysis describes query
      rw [empty] at heights
      simp only [Bool.false_eq_true, if_false, get_txs_recordOutputs, heights,
        true_and]
      by_cases own : crate.computeTxid tx = query
      · simp [own]
      · simp [own]

theorem get_coins_recordMined (stores : ScanStores) (query : OutPoint) :
    (recordMined times height blockHash analysis stores).coins.get query =
      (match analysis.spOutputs[query]? with
        | some output =>
            some (SpCoinEntry.mk query
              (keepStatus (stores.coins.get query)
                { output with blockheight := some height }))
        | none => stores.coins.get query).map
        (fun entry : SpCoinEntry =>
          if query ∈ analysis.spInputs then
            entry.withStatus (entry.status.confirmed blockHash)
          else
            entry) := by
  have received := get_coins_received times height analysis stores query
  unfold recordMined
  dsimp only
  split
  · next none_ =>
      have idle : query ∉ analysis.spInputs := by
        intro member
        have listed :
            query ∈ (Std.ExtTreeSet.ofList analysis.spInputs :
              BTreeSet OutPoint) := by
          simpa [Std.ExtTreeSet.mem_ofList] using member
        rw [Std.ExtTreeSet.isEmpty_iff.mp none_] at listed
        simp at listed
      simp only [received, if_neg idle, Option.map_id']
  · rw [get_coins_recordInputs, received]
    by_cases spent : query ∈ analysis.spInputs
    · simp [spent, Std.ExtTreeSet.mem_ofList]
    · simp [spent, Std.ExtTreeSet.mem_ofList]

theorem get_txs_recordMined
    {crate : TxCrate}
    {tx : Transaction}
    (describes : analysis.Describes crate coins tx)
    (foreign : analysis.spInputs = [])
    (stores : ScanStores)
    (query : Txid) :
    (recordMined times height blockHash analysis stores).txs.get query =
      if analysis.spOutputs.isEmpty = false ∧ crate.computeTxid tx = query then
        some (((stores.txs.get query).getD (SpTxEntry.new query)).confirmedAt
          times height)
      else
        stores.txs.get query := by
  have received :=
    get_txs_received times height analysis describes stores query
  unfold recordMined
  rw [foreign]
  simpa using received

end Mined

/-- Two stores answer every lookup alike. -/
structure SameLookups (left right : ScanStores) : Prop where
  coins : ∀ outpoint, left.coins.get outpoint = right.coins.get outpoint
  txs : ∀ txid, left.txs.get txid = right.txs.get txid

/-- What is stored of one of our own transactions. -/
structure SameRecord (txid : Txid) (left right : ScanStores) : Prop where
  statuses :
    ∀ outpoint,
      (left.coins.get outpoint).map SpCoinEntry.status =
        (right.coins.get outpoint).map SpCoinEntry.status
  confirmation :
    (left.txs.get txid).map (fun entry => (entry.height, entry.timestamp)) =
      (right.txs.get txid).map (fun entry => (entry.height, entry.timestamp))
  change :
    (left.txs.get txid).map SpTxEntry.change =
      (right.txs.get txid).map SpTxEntry.change
  changeCoins :
    ∀ outpoint : OutPoint, outpoint.txid = txid →
      left.coins.get outpoint = right.coins.get outpoint

/-- No spend confirmed by a block becomes unconfirmed. -/
def KeepsConfirmed (before after : ScanStores) : Prop :=
  ∀ outpoint entry hash, before.coins.get outpoint = some entry →
    entry.status.blockHash = some hash →
    ∃ kept, after.coins.get outpoint = some kept ∧
      kept.status.blockHash = some hash

variable {left right : ScanStores}

theorem SameLookups.symm
    (same : SameLookups left right) : SameLookups right left where
  coins outpoint := (same.coins outpoint).symm
  txs txid := (same.txs txid).symm

theorem SameLookups.trans
    {left middle right : ScanStores}
    (first : SameLookups left middle)
    (second : SameLookups middle right) : SameLookups left right where
  coins outpoint := (first.coins outpoint).trans (second.coins outpoint)
  txs txid := (first.txs txid).trans (second.txs txid)

theorem SameLookups.sameRecord
    (same : SameLookups left right)
    (txid : Txid) : SameRecord txid left right where
  statuses outpoint := by rw [same.coins]
  confirmation := by rw [same.txs]
  change := by rw [same.txs]
  changeCoins outpoint _ := same.coins outpoint

theorem SameLookups.keepsConfirmed
    (same : SameLookups left right) : KeepsConfirmed left right := by
  intro outpoint entry hash stored confirmed
  exact ⟨entry, (same.coins outpoint).symm.trans stored, confirmed⟩

theorem SameLookups.named
    (same : SameLookups left right)
    (named : left.txs.Named) : right.txs.Named := by
  intro txid entry stored
  exact named txid entry ((same.txs txid).trans stored)

section Orders

variable
    (crate : TxCrate)
    (times : Nat → Option Nat)
    (height : Nat)
    (blockHash : BlockHash)
    (tx : Transaction)
    (analysis : SpendAnalysis)
    (stores : ScanStores)

/--
Recording a broadcast and recording the block that confirms it can be done in
either order, a repeated broadcast changes nothing, and a broadcast takes no
confirmation back.
-/
structure BroadcastCommutes : Prop where
  order :
    SameRecord (crate.computeTxid tx)
      (recordMined times height blockHash analysis
        (applyUnconfirmedSpend crate tx analysis stores))
      (applyUnconfirmedSpend crate tx analysis
        (recordMined times height blockHash analysis stores))
  repeatedAfterBlock :
    SameLookups
      (recordMined times height blockHash analysis
        (applyUnconfirmedSpend crate tx analysis stores))
      (applyUnconfirmedSpend crate tx analysis
        (recordMined times height blockHash analysis
          (applyUnconfirmedSpend crate tx analysis stores)))
  repeatedLate :
    SameLookups
      (applyUnconfirmedSpend crate tx analysis
        (recordMined times height blockHash analysis stores))
      (applyUnconfirmedSpend crate tx analysis
        (applyUnconfirmedSpend crate tx analysis
          (recordMined times height blockHash analysis stores)))
  keepsConfirmed :
    KeepsConfirmed
      (recordMined times height blockHash analysis stores)
      (applyUnconfirmedSpend crate tx analysis
        (recordMined times height blockHash analysis stores))
  keepsConfirmedRepeated :
    KeepsConfirmed
      (recordMined times height blockHash analysis
        (applyUnconfirmedSpend crate tx analysis stores))
      (applyUnconfirmedSpend crate tx analysis
        (recordMined times height blockHash analysis
          (applyUnconfirmedSpend crate tx analysis stores)))

theorem SameLookups.applyUnconfirmedSpend
    (same : SameLookups left right)
    (named : left.txs.Named) :
    SameLookups (applyUnconfirmedSpend crate tx analysis left)
      (applyUnconfirmedSpend crate tx analysis right) where
  coins outpoint := by
    rw [get_coins_applyUnconfirmedSpend, get_coins_applyUnconfirmedSpend,
      same.coins]
  txs txid := by
    rw [get_txs_applyUnconfirmedSpend _ _ _ named,
      get_txs_applyUnconfirmedSpend _ _ _ (same.named named), same.txs]

variable {crate tx analysis stores}

theorem named_applyUnconfirmedSpend (named : stores.txs.Named) :
    (ScanStores.applyUnconfirmedSpend crate tx analysis stores).txs.Named := by
  intro txid entry stored
  rw [get_txs_applyUnconfirmedSpend _ _ _ named] at stored
  split at stored
  · cases stored
    exact broadcastEntry_txid tx (fun entry => named txid entry) _
  · exact named txid entry stored

theorem confirmedAt_getD_txid
    {existing : Option SpTxEntry}
    {txid : Txid}
    (named : ∀ entry, existing = some entry → entry.txid = txid) :
    ((existing.getD (SpTxEntry.new txid)).confirmedAt times height).txid =
      txid := by
  cases existing with
  | none =>
      simp [SpTxEntry.new]
  | some entry =>
      simpa using named entry rfl

theorem confirmedAt_broadcastEntry
    (txid : Txid)
    (change : Nat)
    (existing : Option SpTxEntry) :
    (broadcastEntry txid tx change existing).confirmedAt times height =
      broadcastEntry txid tx change
        (some ((existing.getD (SpTxEntry.new txid)).confirmedAt
          times height)) := by
  unfold SpTxEntry.confirmedAt SpTxEntry.stamped
  generalize times height = time
  cases existing <;> cases time <;> rfl

variable {coins : SpCoinStore} (describes : analysis.Describes crate coins tx)

include describes in
theorem named_recordMined
    (foreign : analysis.spInputs = [])
    (named : stores.txs.Named) :
    (recordMined times height blockHash analysis stores).txs.Named := by
  intro txid entry stored
  rw [get_txs_recordMined _ _ _ _ describes foreign] at stored
  split at stored
  · cases stored
    exact confirmedAt_getD_txid times height (fun entry => named txid entry)
  · exact named txid entry stored

include describes in
theorem sameLookups_of_foreign
    (foreign : analysis.spInputs = [])
    (named : stores.txs.Named) :
    SameLookups
      (recordMined times height blockHash analysis
        (applyUnconfirmedSpend crate tx analysis stores))
      (applyUnconfirmedSpend crate tx analysis
        (recordMined times height blockHash analysis stores)) where
  coins outpoint := by
    rw [get_coins_recordMined, get_coins_applyUnconfirmedSpend,
      get_coins_applyUnconfirmedSpend, get_coins_recordMined, foreign]
    cases found : analysis.spOutputs[outpoint]? with
    | none =>
        simp
    | some output =>
        have unspent := describes.unspent outpoint output found
        cases stores.coins.get outpoint with
        | none =>
            simp [keepStatus, SpCoinEntry.status, unspent]
        | some entry =>
            simp
  txs txid := by
    rw [get_txs_recordMined _ _ _ _ describes foreign,
      get_txs_applyUnconfirmedSpend _ _ _ named,
      get_txs_applyUnconfirmedSpend _ _ _
        (named_recordMined times height blockHash describes foreign named),
      get_txs_recordMined _ _ _ _ describes foreign]
    by_cases own : crate.computeTxid tx = txid
    · subst own
      cases empty : analysis.spOutputs.isEmpty with
      | true =>
          simp
      | false =>
          by_cases announces : Announces analysis
          · simp [announces, confirmedAt_broadcastEntry]
          · simp [announces]
    · simp [own]

variable (crate tx) in
theorem broadcast_idempotent
    (foreign : analysis.spInputs = [])
    (named : stores.txs.Named) :
    SameLookups
      (ScanStores.applyUnconfirmedSpend crate tx analysis stores)
      (ScanStores.applyUnconfirmedSpend crate tx analysis
        (ScanStores.applyUnconfirmedSpend crate tx analysis stores)) where
  coins outpoint := by
    simp only [get_coins_applyUnconfirmedSpend, foreign, List.not_mem_nil,
      if_false]
    cases stores.coins.get outpoint <;>
      cases analysis.spOutputs[outpoint]? <;> rfl
  txs txid := by
    rw [get_txs_applyUnconfirmedSpend _ _ _
        (named_applyUnconfirmedSpend named),
      get_txs_applyUnconfirmedSpend _ _ _ named]
    by_cases announced : Announces analysis ∧ crate.computeTxid tx = txid
    · simp [announced, broadcastEntry]
    · rw [if_neg announced, if_neg announced]

variable {outpoint : OutPoint} {entry : SpCoinEntry}

include describes in
theorem status_recordMined
    (spent : outpoint ∈ analysis.spInputs)
    (stored : stores.coins.get outpoint = some entry) :
    ((recordMined times height blockHash analysis stores).coins.get
        outpoint).map SpCoinEntry.status =
      some (entry.status.confirmed blockHash) := by
  rw [get_coins_recordMined, stored]
  cases found : analysis.spOutputs[outpoint]? with
  | none =>
      simp [spent]
  | some output =>
      have kept :=
        spendStatus_keepStatus (some entry)
          { output with blockheight := some height }
          (describes.unspent outpoint output found)
      simp only [Option.map_some, if_pos spent,
        SpCoinEntry.status_withStatus]
      exact congrArg (fun status => some (status.confirmed blockHash)) kept

variable (crate tx) in
theorem status_applyUnconfirmedSpend
    (spent : outpoint ∈ analysis.spInputs)
    (stored : stores.coins.get outpoint = some entry) :
    ((ScanStores.applyUnconfirmedSpend crate tx analysis stores).coins.get
        outpoint).map SpCoinEntry.status =
      some (.spent (crate.computeTxid tx) none) := by
  rw [get_coins_applyUnconfirmedSpend, stored]
  simp [spent]

include describes in
theorem orders_differ
    (spent : outpoint ∈ analysis.spInputs)
    (stored : stores.coins.get outpoint = some entry) :
    ¬ BroadcastCommutes crate times height blockHash tx analysis stores := by
  intro commutes
  have alike := commutes.order.statuses outpoint
  have broadcast :=
    status_applyUnconfirmedSpend crate tx spent stored
  obtain ⟨marked, markedStored, markedStatus⟩ :=
    Option.map_eq_some_iff.mp broadcast
  have early :=
    status_recordMined times height blockHash describes spent markedStored
  have mined := status_recordMined times height blockHash describes spent stored
  obtain ⟨found, foundStored, _⟩ := Option.map_eq_some_iff.mp mined
  have late :=
    status_applyUnconfirmedSpend crate tx spent foundStored
  rw [early, late, markedStatus] at alike
  simp [OutputSpendStatus.confirmed] at alike

end Orders

/--
A broadcast and the block that confirms it can be recorded in either order, and
the broadcast again after either, exactly when the transaction spends no coin
of the store.
-/
theorem broadcast_commutes_iff
    (crate : TxCrate)
    (spReceiver : SpReceiver)
    (subAccounts : List SubAccountSpendRecorder)
    (times : Nat → Option Nat)
    (height : Nat)
    (blockHash : BlockHash)
    (tx : Transaction)
    (stores : ScanStores)
    (named : stores.txs.Named)
    (analysis : SpendAnalysis)
    (analyzed :
      analyzeUnconfirmedSpend crate spReceiver stores.coins subAccounts tx =
        .ok analysis) :
    BroadcastCommutes crate times height blockHash tx analysis stores ↔
      ∀ input ∈ tx.input, stores.coins.get input.previousOutput = none := by
  have describes := describes_of_analyze analyzed
  constructor
  · intro commutes input listed
    by_contra held
    obtain ⟨entry, stored⟩ := Option.ne_none_iff_exists'.mp held
    have spent : input.previousOutput ∈ analysis.spInputs :=
      (describes.inputs _).mpr ⟨⟨input, listed, rfl⟩, held⟩
    exact orders_differ times height blockHash describes spent stored commutes
  · intro foreign
    have none_ : analysis.spInputs = [] := by
      rw [List.eq_nil_iff_forall_not_mem]
      intro outpoint spent
      obtain ⟨⟨input, listed, rfl⟩, held⟩ := (describes.inputs _).mp spent
      exact held (foreign input listed)
    have order :=
      sameLookups_of_foreign times height blockHash describes none_ named
    have minedNamed :=
      named_recordMined times height blockHash describes none_ named
    have lateNamed :
        (applyUnconfirmedSpend crate tx analysis
          (recordMined times height blockHash analysis stores)).txs.Named :=
      named_applyUnconfirmedSpend minedNamed
    have again :=
      broadcast_idempotent crate tx none_ minedNamed
    have early :=
      (order.trans again).trans
        (order.symm.applyUnconfirmedSpend crate tx analysis lateNamed)
    exact
      { order := order.sameRecord _
        repeatedAfterBlock := early
        repeatedLate := again
        keepsConfirmed := by
          intro outpoint entry hash stored confirmed
          refine ⟨entry, ?_, confirmed⟩
          rw [get_coins_applyUnconfirmedSpend, none_]
          simp [stored]
        keepsConfirmedRepeated := early.keepsConfirmed }

/-- A wallet that holds one coin. -/
def sampleHolding : ScanStores where
  coins :=
    (SpCoinStore.withBackend ⟨∅, []⟩).insert ⟨1, 0⟩
      { blockheight := some 100
        tweak := 1
        amount := 50
        script := 7
        label := none
        spendStatus := .unspent }
  txs := SpTxStore.withBackend ⟨∅, []⟩
  state := ScanState.withBackend 90 ⟨∅, []⟩ ⟨none, none, none, []⟩

/-- A transaction that spends one outpoint and pays one of our keys. -/
def sampleSpend (outpoint : OutPoint) : Transaction where
  version := 2
  lockTime := 9
  input := [⟨outpoint, 0, 0, []⟩]
  output := [⟨40, 7⟩]

/-- Keys that own the script the transaction pays. -/
def sampleReceiver : SpReceiver where
  outputKey script := some script
  ownedKeys _ _ := .ok (Std.ExtTreeMap.insert ∅ 7 (none, 3))

/-- A sub-account that owns the coin of another transaction. -/
def sampleRecorder : SubAccountSpendRecorder where
  scripts := Std.ExtTreeSet.insert ∅ 5
  getCoin outpoint := if outpoint.txid = 2 then some ⟨60, 5⟩ else none

/-- What a broadcast records of the sample transaction. -/
def sampleAnalysis (spInputs : List OutPoint) : SpendAnalysis where
  spInputs := spInputs
  subAccounts := Std.ExtTreeSet.ofList (if spInputs = [] then [0] else [])
  spOutputs :=
    BTreeMap.insertAll ∅ [(⟨9, 0⟩, ⟨none, 3, 40, 7, none, .unspent⟩)]

theorem sampleHolding_named : sampleHolding.txs.Named := by
  intro txid entry stored
  have absent : sampleHolding.txs.get txid = none :=
    Std.ExtTreeMap.getElem?_empty
  rw [absent] at stored
  cases stored

/-- A payment funded by a sub-account and its block, in either order. -/
theorem broadcast_commutes_funded_elsewhere :
    BroadcastCommutes TxCrate.sample (fun _ => some 77) 120 500
      (sampleSpend ⟨2, 0⟩) (sampleAnalysis []) sampleHolding :=
  (broadcast_commutes_iff TxCrate.sample sampleReceiver [sampleRecorder]
    (fun _ => some 77) 120 500 (sampleSpend ⟨2, 0⟩) sampleHolding
    sampleHolding_named (sampleAnalysis []) rfl).mpr (by decide +kernel)

/--
A transaction that spends a coin of the wallet: recorded late, the broadcast
takes back the confirmation the block gave.
-/
theorem late_broadcast_unconfirms :
    analyzeUnconfirmedSpend TxCrate.sample sampleReceiver sampleHolding.coins []
        (sampleSpend ⟨1, 0⟩) = .ok (sampleAnalysis [⟨1, 0⟩]) ∧
      ¬ BroadcastCommutes TxCrate.sample (fun _ => some 77) 120 500
        (sampleSpend ⟨1, 0⟩) (sampleAnalysis [⟨1, 0⟩]) sampleHolding := by
  refine ⟨rfl, ?_⟩
  intro commutes
  have mined :
      ((recordMined (fun _ => some 77) 120 500 (sampleAnalysis [⟨1, 0⟩])
        sampleHolding).coins.get ⟨1, 0⟩).map SpCoinEntry.status =
        some (.mined 500) := by
    decide +kernel
  have late :
      ((applyUnconfirmedSpend TxCrate.sample (sampleSpend ⟨1, 0⟩)
        (sampleAnalysis [⟨1, 0⟩])
        (recordMined (fun _ => some 77) 120 500 (sampleAnalysis [⟨1, 0⟩])
          sampleHolding)).coins.get ⟨1, 0⟩).map SpCoinEntry.status =
        some (.spent 9 none) := by
    decide +kernel
  obtain ⟨entry, stored, confirmed⟩ := Option.map_eq_some_iff.mp mined
  obtain ⟨kept, keptStored, hashed⟩ :=
    commutes.keepsConfirmed ⟨1, 0⟩ entry 500 stored (by
      rw [confirmed]
      rfl)
  rw [keptStored, Option.map_some, Option.some.injEq] at late
  rw [late] at hashed
  cases hashed

end ScanStores

end Bwk
