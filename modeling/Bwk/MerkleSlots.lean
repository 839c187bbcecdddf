import Bwk.ReconcilerSafety

/-!
# Slots of merkle fetches

A slot is taken in the same breath as the fetch it guards is listed, and the
outcome of a fetch frees its slot first. So whatever happens to a scan, every
slot held afterwards was held before or has its fetch among the new ones.
-/

namespace Bwk

namespace CoinStore

variable {Backend HeaderRows Raw : Type}
variable {btc : Bitcoin Raw} {headers : HeaderStore HeaderRows Raw}

/-- Every slot a pass added belongs to a fetch it lists. -/
def SlotsListed
    (coins : CoinStore Backend)
    (pass : ChainPass Backend) : Prop :=
  ∀ claim ∈ pass.coins.merkleInFlight,
    claim ∈ coins.merkleInFlight ∨ claim ∈ pass.outcome.toFetch

theorem SlotsListed.taken
    {coins : CoinStore Backend}
    {pass after : ChainPass Backend}
    {claim : ClaimAt}
    (listed : coins.SlotsListed pass)
    (slots :
      after.coins.merkleInFlight = insert claim pass.coins.merkleInFlight)
    (fetches : after.outcome.toFetch = pass.outcome.toFetch ++ [claim]) :
    coins.SlotsListed after := by
  intro held member
  rw [slots] at member
  rw [fetches, List.mem_append]
  rcases Finset.mem_insert.mp member with rfl | before
  · exact .inr (.inr (List.mem_singleton.mpr rfl))
  · exact (listed held before).imp_right .inl

theorem slotsListed_reverifyReminedEntries
    (coins : CoinStore Backend) :
    coins.SlotsListed (coins.reverifyReminedEntries btc headers) := by
  refine reverifyReminedEntries_keeps coins.SlotsListed
    (fun _ held => .inl held) ?_
  intro pass listed entry _
  rcases reverifyEntry_cases btc headers pass entry with
    same | ⟨height, blockHash, -, -, requeued⟩ |
      ⟨height, blockHash, current, -, -, -, restamped⟩
  · rw [same]
    exact listed
  · rw [requeued]
    exact listed.taken rfl rfl
  · rw [restamped]
    exact listed.taken rfl rfl

theorem slotsListed_resolvePendingClaims
    (coins : CoinStore Backend) :
    coins.SlotsListed (coins.resolvePendingClaims btc headers) := by
  have loop :
      coins.SlotsListed
        (resolveClaims btc headers (ChainPass.start coins)
          coins.pendingClaimsSnapshot).2 := by
    refine resolveClaims_keeps coins.SlotsListed
      (fun _ held => .inl held) ?_
    intro pass claim listed
    rcases resolveClaim_cases btc headers pass claim with
      same | ⟨blockHash, -, -, stamped⟩
    · rw [same]
      exact listed
    · rw [stamped]
      exact listed.taken rfl rfl
  intro claim held
  rw [merkleInFlight_resolvePendingClaims] at held
  rw [outcome_resolvePendingClaims]
  exact loop claim held

theorem merkleInFlight_updateHistories
    (rows : List (ScriptBuf × History))
    (coins : CoinStore Backend) :
    (coins.updateHistories rows).2.merkleInFlight ⊆
      coins.merkleInFlight := by
  induction rows generalizing coins with
  | nil =>
      exact subset_rfl
  | cons row rest inductionHypothesis =>
      intro claim held
      have folded := inductionHypothesis _ held
      exact ((mem_merkleInFlight_updateSpkHistory _ row.1 row.2 claim).mp
        folded).1

variable [PersistenceBackend Backend Txid TxEntry] {crate : TxCrate}

theorem merkleInFlight_handleHistoryResponse
    (coins : CoinStore Backend)
    (hist : BTreeMap ScriptBuf History) :
    (coins.handleHistoryResponse crate hist).2.merkleInFlight ⊆
      coins.merkleInFlight := by
  rcases handleHistoryResponse_eq crate coins hist with plain | generated
  · rw [plain]
    exact merkleInFlight_updateHistories _ _
  · rw [generated, merkleInFlight_generate]
    exact merkleInFlight_updateHistories _ _

theorem merkleInFlight_foldHistory
    (coins : CoinStore Backend)
    (connected : Bool)
    (hist : BTreeMap ScriptBuf History) :
    (coins.foldHistory crate connected hist).merkleInFlight ⊆
      coins.merkleInFlight := by
  have folded :
      (coins.handleHistoryResponse crate hist).2.merkleInFlight ⊆
        coins.merkleInFlight :=
    merkleInFlight_handleHistoryResponse coins hist
  unfold foldHistory
  dsimp only
  split
  · unfold commitHistory
    dsimp only
    split
    · simpa using folded
    · simpa using folded
  · exact folded

end CoinStore

namespace Reconciler

variable {Backend HeaderRows Raw : Type}
variable {btc : Bitcoin Raw} {crate : TxCrate}
variable {hashPair : TxMerkleNode → TxMerkleNode → TxMerkleNode}

/-- Fetches are only added, and every new slot has its fetch among them. -/
def SlotsFetched (before after : Reconciler Backend HeaderRows Raw) : Prop :=
  ∃ fetched, after.fetches = before.fetches ++ fetched ∧
    ∀ claim ∈ after.coins.merkleInFlight,
      claim ∈ before.coins.merkleInFlight ∨ claim ∈ fetched

theorem SlotsFetched.of_subset
    {before after : Reconciler Backend HeaderRows Raw}
    (fetches : after.fetches = before.fetches)
    (slots : after.coins.merkleInFlight ⊆ before.coins.merkleInFlight) :
    SlotsFetched before after :=
  ⟨[], by simp [fetches], fun _ held => .inl (slots held)⟩

variable [PersistenceBackend Backend Txid TxEntry]

variable (rec : Reconciler Backend HeaderRows Raw)

@[simp] theorem merkleInFlight_commitChainUpdate
    (changed : Bool) :
    (rec.commitChainUpdate crate changed).coins.merkleInFlight =
      rec.coins.merkleInFlight := by
  unfold commitChainUpdate
  split
  · simp
  · rfl

theorem slotsFetched_onChainUpdate :
    SlotsFetched rec (rec.onChainUpdate btc crate) := by
  cases valid : rec.headers.isValidated with
  | false =>
      obtain ⟨events, told⟩ :=
        onChainUpdate_of_unvalidated btc crate valid
      rw [told]
      exact .of_subset rfl subset_rfl
  | true =>
      obtain ⟨coins, fetches, -⟩ :=
        onChainUpdate_of_validated btc crate valid
      refine ⟨_, fetches, ?_⟩
      intro claim held
      rw [coins, merkleInFlight_commitChainUpdate] at held
      rcases CoinStore.slotsListed_resolvePendingClaims _ claim held with
        early | late
      · exact (CoinStore.slotsListed_reverifyReminedEntries rec.coins claim
          early).imp_right (fun listed => List.mem_append_left _ listed)
      · exact .inr (List.mem_append_right _ late)

theorem slotsFetched_handleMerkleOutcome
    (outcome : MerkleOutcome) :
    SlotsFetched (rec.freed outcome.claim)
      (rec.handleMerkleOutcome btc crate hashPair outcome) := by
  rcases handleMerkleOutcome_cases btc crate hashPair rec outcome with
    ⟨events, told⟩ | passed |
      ⟨txid, height, branch, pos, target, rfl, -, -, judged⟩
  · rw [told]
    exact .of_subset rfl subset_rfl
  · rw [passed]
    exact slotsFetched_onChainUpdate _
  · rw [judged]
    refine .of_subset (fetches_applyTxMerkle target branch pos) ?_
    unfold applyTxMerkle
    dsimp only
    split
    · rw [merkleInFlight_commitChainUpdate]
      exact subset_rfl
    · rw [CoinStore.merkleInFlight_generate]
      exact subset_rfl

theorem slotsFetched_step
    (next : ScanStep HeaderRows Raw) :
    SlotsFetched rec (rec.step btc crate hashPair next) := by
  cases next with
  | history connected hist =>
      exact .of_subset rfl
        (CoinStore.merkleInFlight_foldHistory rec.coins connected hist)
  | cleared spk =>
      refine .of_subset rfl ?_
      simp only [step, CoinStore.merkleInFlight_generate]
      exact CoinStore.merkleInFlight_handleHistoryResponse rec.coins _
  | txs txs =>
      exact .of_subset rfl subset_rfl
  | broadcast tx =>
      refine .of_subset rfl ?_
      simp only [step, CoinStore.recordUnconfirmedTx]
      split
      · exact subset_rfl
      · split <;> exact subset_rfl
  | chainUpdate =>
      exact slotsFetched_onChainUpdate rec
  | merkle outcome =>
      obtain ⟨fetched, fetches, slots⟩ :=
        slotsFetched_handleMerkleOutcome rec outcome
      refine ⟨fetched, fetches, fun claim held => ?_⟩
      exact (slots claim held).imp_left Finset.mem_of_mem_erase
  | requeue =>
      exact ⟨_, rfl, fun _ held => .inl held⟩
  | stampTimes =>
      refine .of_subset rfl ?_
      simp only [step, stampConfirmationTimes,
        CoinStore.stampConfirmationTimes]
      split <;> exact subset_rfl
  | headers headers =>
      exact .of_subset rfl subset_rfl

end Reconciler

end Bwk
