import Bwk.SpBroadcast

namespace Bwk

/-!
# Reachable silent-payment wallets

The stores of a wallet change through broadcasts, scans and rollbacks only.
Whatever their order, an unconfirmed transaction has no block time and a
transaction known to spend a coin is stored.
-/

/-- The stores of a wallet, reached from an empty one. -/
inductive SpReachable : ScanStores → Prop where
  | fresh coins txs state :
      SpReachable
        ⟨SpCoinStore.withBackend coins, SpTxStore.withBackend txs, state⟩
  | broadcast {stores} crate tx (analysis : SpendAnalysis) :
      SpReachable stores →
      (∀ (outpoint : OutPoint) (output : OwnedOutput),
        analysis.spOutputs[outpoint]? = some output →
        output.spendStatus = .unspent) →
      SpReachable (stores.applyUnconfirmedSpend crate tx analysis)
  | outputs {stores} times (outputs : BTreeMap OutPoint OwnedOutput) :
      SpReachable stores →
      (∀ (outpoint : OutPoint) (output : OwnedOutput),
        outputs[outpoint]? = some output → output.spendStatus = .unspent) →
      SpReachable (stores.recordOutputs times outputs)
  | inputs {stores} times blockHash height spent :
      SpReachable stores →
      SpReachable (stores.recordInputs times blockHash height spent)
  | rollBack {stores} forkHeight reorged :
      SpReachable stores →
      SpReachable (stores.rollBack forkHeight reorged)
  | restamp {stores} times :
      SpReachable stores →
      SpReachable
        { stores with txs := stores.txs.restampMissingTimestamps times }
  | scanState {stores} state :
      SpReachable stores → SpReachable { stores with state := state }
  | saveState {stores} : SpReachable stores → SpReachable stores.saveState

/-- What every reachable wallet keeps of its transactions. -/
structure WalletInvariant (stores : ScanStores) : Prop where
  named : stores.txs.Named
  /-- Only a confirmed transaction has a block time. -/
  unstamped :
    ∀ txid entry, stores.txs.get txid = some entry →
      entry.height = none → entry.timestamp = none
  /-- A transaction known to spend a coin is stored. -/
  spenders :
    ∀ outpoint txid, ScanStores.SpentBy stores.coins outpoint txid →
      stores.txs.get txid ≠ none

namespace ScanStores

section RollBack

variable (forkHeight : Nat) (reorged : List BlockHash) (stores : ScanStores)

@[simp] theorem get_coins_rollBack (query : OutPoint) :
    (stores.rollBack forkHeight reorged).coins.get query =
      (stores.coins.get query).bind
        (SpCoinStore.rolledBack forkHeight reorged) := by
  simp [rollBack, SpCoinStore.get_rollBack]

theorem mem_spendingTxids_iff
    (coins : SpCoinStore)
    (txid : Txid) :
    txid ∈ coins.spendingTxids ↔ ∃ outpoint, SpentBy coins outpoint txid := by
  simp only [SpCoinStore.mem_spendingTxids, SpentBy, Option.bind_eq_some_iff]

theorem get_txs_rollBack
    (named : stores.txs.Named)
    (query : Txid) :
    (stores.rollBack forkHeight reorged).txs.get query =
      (stores.txs.get query).bind (fun entry =>
        if entry.height.all (fun height => height ≤ forkHeight) then
          some entry
        else if
            query ∈
              (stores.rollBack forkHeight reorged).coins.spendingTxids then
          some { entry with height := none, timestamp := none }
        else
          none) := by
  have shape :
      (stores.rollBack forkHeight reorged).txs.get query =
        (stores.txs.rollBack forkHeight
          (stores.rollBack forkHeight reorged).coins.spendingTxids).get
            query :=
    SpTxStore.get_persist ..
  rw [shape, SpTxStore.get_rollBack _ _ named]
  cases stored : stores.txs.get query with
  | none =>
      rfl
  | some entry =>
      simp only [Option.bind_some, SpTxStore.rolledBack,
        named query entry stored]
      split
      · rfl
      · exact ite_not _ _ _

theorem spentBy_of_rollBack
    {outpoint : OutPoint}
    {txid : Txid}
    (spent :
      SpentBy (stores.rollBack forkHeight reorged).coins outpoint txid) :
    SpentBy stores.coins outpoint txid := by
  unfold SpentBy at spent ⊢
  rw [get_coins_rollBack] at spent
  cases stored : stores.coins.get outpoint with
  | none =>
      rw [stored] at spent
      cases spent
  | some entry =>
      rw [stored] at spent
      simp only [Option.bind_some, SpCoinStore.rolledBack] at spent
      split at spent
      · cases spent
      · simpa using spent

end RollBack

/-- A rollback moves the receive frontier to the fork. -/
@[simp] theorem lastScannedHeight_rollBack
    (forkHeight : Nat)
    (reorged : List BlockHash)
    (stores : ScanStores) :
    (stores.rollBack forkHeight reorged).state.lastScannedHeight =
      some forkHeight := by
  simp [rollBack, ScanState.rollBack, ScanState.dropBlockHashes]

/-- A rollback keeps the spend frontier below the fork. -/
@[simp] theorem lastSpendHeight_rollBack
    (forkHeight : Nat)
    (reorged : List BlockHash)
    (stores : ScanStores) :
    (stores.rollBack forkHeight reorged).state.lastSpendHeight =
      stores.state.lastSpendHeight.map (min · forkHeight) := by
  simp [rollBack, ScanState.rollBack, ScanState.dropBlockHashes]

theorem spentBy_recordOutputs
    (times : Nat → Option Nat)
    {outputs : BTreeMap OutPoint OwnedOutput}
    (unspent :
      ∀ (outpoint : OutPoint) (output : OwnedOutput),
        outputs[outpoint]? = some output → output.spendStatus = .unspent)
    (stores : ScanStores)
    (outpoint : OutPoint)
    (txid : Txid) :
    SpentBy (stores.recordOutputs times outputs).coins outpoint txid ↔
      SpentBy stores.coins outpoint txid := by
  unfold SpentBy
  rw [get_coins_recordOutputs]
  cases found : outputs[outpoint]? with
  | none =>
      rfl
  | some output =>
      have kept :=
        spendStatus_keepStatus (stores.coins.get outpoint) output
          (unspent outpoint output found)
      rw [Option.bind_some, SpCoinEntry.status, kept]
      cases stores.coins.get outpoint <;> rfl

theorem spentBy_recordInputs
    (times : Nat → Option Nat)
    (blockHash : BlockHash)
    (height : Nat)
    (spent : BTreeSet OutPoint)
    (stores : ScanStores)
    (outpoint : OutPoint)
    (txid : Txid) :
    SpentBy (stores.recordInputs times blockHash height spent).coins outpoint
        txid ↔
      SpentBy stores.coins outpoint txid := by
  unfold SpentBy
  rw [get_coins_recordInputs]
  split
  · cases stores.coins.get outpoint <;> simp
  · rfl

theorem spentBy_applyUnconfirmedSpend
    {crate : TxCrate}
    {tx : Transaction}
    {analysis : SpendAnalysis}
    (unspent :
      ∀ (outpoint : OutPoint) (output : OwnedOutput),
        analysis.spOutputs[outpoint]? = some output →
        output.spendStatus = .unspent)
    {stores : ScanStores}
    {outpoint : OutPoint}
    {txid : Txid}
    (spent :
      SpentBy (stores.applyUnconfirmedSpend crate tx analysis).coins outpoint
        txid) :
    (outpoint ∈ analysis.spInputs ∧ crate.computeTxid tx = txid) ∨
      SpentBy stores.coins outpoint txid := by
  unfold SpentBy at spent ⊢
  rw [get_coins_applyUnconfirmedSpend] at spent
  cases stored : stores.coins.get outpoint with
  | none =>
      cases found : analysis.spOutputs[outpoint]? with
      | none =>
          simp [stored, found] at spent
      | some output =>
          have idle := unspent outpoint output found
          simp [stored, found, SpCoinEntry.status, idle,
            OutputSpendStatus.spender] at spent
  | some entry =>
      rw [stored] at spent
      by_cases listed : outpoint ∈ analysis.spInputs
      · simp only [if_pos listed, Option.map_some, Option.some_or,
          Option.bind_some, SpCoinEntry.status_withStatus,
          OutputSpendStatus.spender, Option.some.injEq] at spent
        exact Or.inl ⟨listed, spent⟩
      · simp only [if_neg listed, Option.some_or] at spent
        exact Or.inr spent

end ScanStores

namespace WalletInvariant

variable {stores : ScanStores} (invariant : WalletInvariant stores)

include invariant

theorem broadcast
    (crate : TxCrate)
    (tx : Transaction)
    {analysis : SpendAnalysis}
    (unspent :
      ∀ (outpoint : OutPoint) (output : OwnedOutput),
        analysis.spOutputs[outpoint]? = some output →
        output.spendStatus = .unspent) :
    WalletInvariant (stores.applyUnconfirmedSpend crate tx analysis) where
  named := ScanStores.named_applyUnconfirmedSpend invariant.named
  unstamped txid entry stored unconfirmed := by
    rw [ScanStores.get_txs_applyUnconfirmedSpend _ _ _ invariant.named]
      at stored
    split at stored
    · cases stored
      cases existing : stores.txs.get txid with
      | none =>
          rfl
      | some entry =>
          rw [existing] at unconfirmed
          exact invariant.unstamped txid entry existing unconfirmed
    · exact invariant.unstamped txid entry stored unconfirmed
  spenders outpoint txid spent := by
    rw [ScanStores.get_txs_applyUnconfirmedSpend _ _ _ invariant.named]
    split
    · simp
    · next quiet =>
        rcases ScanStores.spentBy_applyUnconfirmedSpend unspent spent with
          ⟨listed, own⟩ | before
        · exact absurd ⟨Or.inl (List.ne_nil_of_mem listed), own⟩ quiet
        · exact invariant.spenders outpoint txid before

theorem outputs
    (times : Nat → Option Nat)
    {outputs : BTreeMap OutPoint OwnedOutput}
    (unspent :
      ∀ (outpoint : OutPoint) (output : OwnedOutput),
        outputs[outpoint]? = some output → output.spendStatus = .unspent) :
    WalletInvariant (stores.recordOutputs times outputs) where
  named := ScanStores.named_recordOutputs times outputs invariant.named
  unstamped txid entry stored unconfirmed := by
    rw [ScanStores.get_txs_recordOutputs] at stored
    split at stored
    · cases stored
      simp at unconfirmed
    · exact invariant.unstamped txid entry stored unconfirmed
  spenders outpoint txid spent := by
    rw [ScanStores.spentBy_recordOutputs times unspent] at spent
    rw [ScanStores.get_txs_recordOutputs]
    split
    · simp
    · exact invariant.spenders outpoint txid spent

theorem inputs
    (times : Nat → Option Nat)
    (blockHash : BlockHash)
    (height : Nat)
    (spent : BTreeSet OutPoint) :
    WalletInvariant (stores.recordInputs times blockHash height spent) where
  named :=
    ScanStores.named_recordInputs times blockHash height spent invariant.named
  unstamped txid entry stored unconfirmed := by
    classical
    rw [ScanStores.get_txs_recordInputs] at stored
    split at stored
    · obtain ⟨existing, _, rfl⟩ := Option.map_eq_some_iff.mp stored
      simp at unconfirmed
    · exact invariant.unstamped txid entry stored unconfirmed
  spenders outpoint txid by_ := by
    classical
    rw [ScanStores.spentBy_recordInputs] at by_
    have stored := invariant.spenders outpoint txid by_
    rw [ScanStores.get_txs_recordInputs]
    split
    · simpa using stored
    · exact stored

theorem rollBack (forkHeight : Nat) (reorged : List BlockHash) :
    WalletInvariant (stores.rollBack forkHeight reorged) where
  named := by
    intro txid entry stored
    rw [ScanStores.get_txs_rollBack _ _ _ invariant.named,
      Option.bind_eq_some_iff] at stored
    obtain ⟨existing, found, kept⟩ := stored
    have own := invariant.named txid existing found
    split at kept
    · cases kept
      exact own
    · split at kept
      · cases kept
        exact own
      · cases kept
  unstamped txid entry stored unconfirmed := by
    rw [ScanStores.get_txs_rollBack _ _ _ invariant.named,
      Option.bind_eq_some_iff] at stored
    obtain ⟨existing, found, kept⟩ := stored
    split at kept
    · cases kept
      exact invariant.unstamped txid _ found unconfirmed
    · split at kept
      · cases kept
        rfl
      · cases kept
  spenders outpoint txid spent := by
    have before := ScanStores.spentBy_of_rollBack _ _ _ spent
    obtain ⟨entry, stored⟩ :=
      Option.ne_none_iff_exists'.mp (invariant.spenders outpoint txid before)
    have pending :
        txid ∈
          (stores.rollBack forkHeight reorged).coins.spendingTxids :=
      (ScanStores.mem_spendingTxids_iff _ _).mpr ⟨outpoint, spent⟩
    rw [ScanStores.get_txs_rollBack _ _ _ invariant.named, stored,
      Option.bind_some, if_pos pending]
    split
    · exact Option.some_ne_none _
    · exact Option.some_ne_none _

theorem restamp (times : Nat → Option Nat) :
    WalletInvariant
      { stores with txs := stores.txs.restampMissingTimestamps times } where
  named := by
    intro txid entry stored
    rw [SpTxStore.get_restampMissingTimestamps invariant.named] at stored
    obtain ⟨existing, found, rfl⟩ := Option.map_eq_some_iff.mp stored
    simpa using invariant.named txid existing found
  unstamped txid entry stored unconfirmed := by
    rw [SpTxStore.get_restampMissingTimestamps invariant.named] at stored
    obtain ⟨existing, found, rfl⟩ := Option.map_eq_some_iff.mp stored
    rw [SpTxEntry.restamped_height] at unconfirmed
    rw [SpTxEntry.restamped_of_unconfirmed times unconfirmed]
    exact invariant.unstamped txid existing found unconfirmed
  spenders outpoint txid spent := by
    rw [SpTxStore.get_restampMissingTimestamps invariant.named]
    simpa using invariant.spenders outpoint txid spent

theorem of_sameLookups
    {other : ScanStores}
    (same : ScanStores.SameLookups stores other) :
    WalletInvariant other where
  named := same.named invariant.named
  unstamped txid entry stored :=
    invariant.unstamped txid entry ((same.txs txid).trans stored)
  spenders outpoint txid spent := by
    rw [← same.txs]
    refine invariant.spenders outpoint txid ?_
    unfold ScanStores.SpentBy at spent ⊢
    rw [same.coins]
    exact spent

end WalletInvariant

theorem SpReachable.invariant
    {stores : ScanStores}
    (reachable : SpReachable stores) : WalletInvariant stores := by
  induction reachable with
  | fresh coins txs state =>
      have noTx :
          ∀ txid, (SpTxStore.withBackend txs).get txid = none :=
        fun _ => Std.ExtTreeMap.getElem?_empty
      have noCoin :
          ∀ outpoint, (SpCoinStore.withBackend coins).get outpoint = none :=
        fun _ => Std.ExtTreeMap.getElem?_empty
      exact
        { named := fun txid entry stored => by simp [noTx] at stored
          unstamped := fun txid entry stored => by simp [noTx] at stored
          spenders := fun outpoint txid spent => by
            simp [ScanStores.SpentBy, noCoin] at spent }
  | broadcast crate tx analysis _ unspent inductionHypothesis =>
      exact inductionHypothesis.broadcast crate tx unspent
  | outputs times outputs _ unspent inductionHypothesis =>
      exact inductionHypothesis.outputs times unspent
  | inputs times blockHash height spent _ inductionHypothesis =>
      exact inductionHypothesis.inputs times blockHash height spent
  | rollBack forkHeight reorged _ inductionHypothesis =>
      exact inductionHypothesis.rollBack forkHeight reorged
  | restamp times _ inductionHypothesis =>
      exact inductionHypothesis.restamp times
  | scanState state _ inductionHypothesis =>
      exact inductionHypothesis.of_sameLookups ⟨fun _ => rfl, fun _ => rfl⟩
  | saveState _ inductionHypothesis =>
      exact inductionHypothesis.of_sameLookups
        ⟨fun _ => by simp [ScanStores.saveState],
          fun _ => by simp [ScanStores.saveState]⟩

end Bwk
