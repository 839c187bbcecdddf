import Bwk.Reconciler

namespace Bwk

/-!
# Verified means proven

The coin store is driven by the listener, the reconciler and an adversarial
server in any order, over a header store that may change arbitrarily between
two steps.  A transaction becomes verified only by a proof that checks against
the header the validated store held, and a refused proof freezes it for as
long as that header stays.
-/

/-- A coin store on opened rows; everything else starts empty. -/
def CoinStore.new
    (addressStore : AddressStore)
    (txStore : TxStore Backend)
    (labels : BTreeMap OutPoint String)
    (headerScanner : Bool) : CoinStore Backend where
  store := ∅
  spkToOutpoint := ∅
  labels := labels
  addressStore := addressStore
  txStore := txStore
  spkHistory := ∅
  updates := []
  generated := false
  pendingClaims := ∅
  merkleInFlight := ∅
  headerScanner := headerScanner
  events := []

/-- What can happen to a scan and the store it is reconciled with. -/
inductive ScanStep (HeaderRows Raw : Type) where
  /-- A history is folded, by a listener that may have lost its client. -/
  | history (connected : Bool) (hist : BTreeMap ScriptBuf History)
  /-- A script's status is gone. -/
  | cleared (spk : ScriptBuf)
  | txs (txs : List Transaction)
  | broadcast (tx : Transaction)
  | chainUpdate
  | merkle (outcome : MerkleOutcome)
  | requeue
  | stampTimes
  /-- The header store moves on its own. -/
  | headers (headers : HeaderStore HeaderRows Raw)

namespace Reconciler

variable {Backend HeaderRows Raw : Type}
variable [PersistenceBackend Backend Txid TxEntry]

section Runs

variable (btc : Bitcoin Raw) (crate : TxCrate)
variable (hashPair : TxMerkleNode → TxMerkleNode → TxMerkleNode)

def step
    (rec : Reconciler Backend HeaderRows Raw) :
    ScanStep HeaderRows Raw → Reconciler Backend HeaderRows Raw
  | .history connected hist =>
      { rec with coins := rec.coins.foldHistory crate connected hist }
  | .cleared spk =>
      { rec with
        coins :=
          (rec.coins.handleHistoryResponse crate
            ((∅ : BTreeMap ScriptBuf History).insert spk [])).2.generate
              crate }
  | .txs txs =>
      { rec with coins := rec.coins.handleTxsResponse crate txs }
  | .broadcast tx =>
      { rec with coins := rec.coins.recordUnconfirmedTx crate tx }
  | .chainUpdate => rec.onChainUpdate btc crate
  | .merkle outcome => rec.handleMerkleOutcome btc crate hashPair outcome
  | .requeue => rec.requeueConfirmedUnverified
  | .stampTimes => rec.stampConfirmationTimes btc
  | .headers headers => { rec with headers := headers }

/-- Take the steps one after the other. -/
def run
    (rec : Reconciler Backend HeaderRows Raw)
    (steps : List (ScanStep HeaderRows Raw)) :
    Reconciler Backend HeaderRows Raw :=
  steps.foldl (step btc crate hashPair) rec

/-- A scan that has seen nothing, with a header scanner. -/
def fresh
    (addressStore : AddressStore)
    (labels : BTreeMap OutPoint String)
    (backend : Backend)
    (headers : HeaderStore HeaderRows Raw) :
    Reconciler Backend HeaderRows Raw where
  coins :=
    CoinStore.new addressStore ⟨RamStore.empty backend⟩ labels true
  headers := headers
  fetches := []
  events := []

end Runs

variable {btc : Bitcoin Raw} {crate : TxCrate}
variable {hashPair : TxMerkleNode → TxMerkleNode → TxMerkleNode}
variable {rec : Reconciler Backend HeaderRows Raw}

variable {coins : CoinStore Backend} {txid : Txid} (changed : Bool)
variable (target : MerkleTarget) {height : Nat} (branch : List TxMerkleNode)
variable {blockHash : BlockHash} (pos : UInt32)
variable {next : ScanStep HeaderRows Raw}

theorem persist_generate_same
    (sound : coins.Sound crate) :
    ({ coins with txStore := coins.txStore.persist }.generate crate).Sound
        crate ∧
      ∀ txid,
        ({ coins with
            txStore := coins.txStore.persist }.generate
              crate).txStore.inclusionOf txid =
          coins.txStore.inclusionOf txid := by
  have persisted : CoinStore.Sound crate
      { coins with txStore := coins.txStore.persist } :=
    ⟨CoinStore.keyed_persist sound.keyed, sound.slots⟩
  refine ⟨persisted.generate, fun txid => ?_⟩
  rw [CoinStore.inclusionOf_generate persisted.keyed]
  exact TxStore.inclusionOf_persist _ txid

theorem commitChainUpdate_same
    (rec : Reconciler Backend HeaderRows Raw)
    (sound : rec.coins.Sound crate)
    (changed : Bool) :
    (rec.commitChainUpdate crate changed).coins.Sound crate ∧
      ∀ txid,
        (rec.commitChainUpdate crate changed).coins.txStore.inclusionOf
            txid =
          rec.coins.txStore.inclusionOf txid := by
  unfold commitChainUpdate
  split
  · exact persist_generate_same sound
  · exact ⟨sound, fun _ => rfl⟩

@[simp] theorem headers_commitChainUpdate :
    (rec.commitChainUpdate crate changed).headers = rec.headers := by
  unfold commitChainUpdate
  split <;> rfl

@[simp] theorem fetches_commitChainUpdate :
    (rec.commitChainUpdate crate changed).fetches = rec.fetches := by
  unfold commitChainUpdate
  split <;> rfl

theorem header_requestExtendDown
    (headers : HeaderStore HeaderRows Raw)
    (wanted height : Nat) :
    (headers.requestExtendDown wanted).header btc height =
      headers.header btc height := by
  unfold HeaderStore.requestExtendDown
  split
  · rfl
  · split <;> rfl

theorem onChainUpdate_of_unvalidated
    (btc : Bitcoin Raw)
    (crate : TxCrate)
    (refused : rec.headers.isValidated = false) :
    ∃ events, rec.onChainUpdate btc crate = { rec with events := events } := by
  simp only [onChainUpdate, headerStoreReady, refused, Bool.false_eq_true,
    ↓reduceIte]
  cases rec.headers.validationFailedReason with
  | none =>
      exact ⟨rec.events, rfl⟩
  | some cause =>
      exact ⟨rec.events ++ [.headerStoreInvalid cause], rfl⟩

/-- The two passes over the chain, one after the other. -/
def passed
    (btc : Bitcoin Raw)
    (rec : Reconciler Backend HeaderRows Raw) :
    CoinStore.ChainPass Backend × CoinStore.ChainPass Backend :=
  let reverify := rec.coins.reverifyReminedEntries btc rec.headers
  (reverify, reverify.coins.resolvePendingClaims btc rec.headers)

theorem onChainUpdate_of_validated
    (btc : Bitcoin Raw)
    (crate : TxCrate)
    (valid : rec.headers.isValidated = true) :
    (rec.onChainUpdate btc crate).coins =
        (commitChainUpdate crate
          { rec with coins := (rec.passed btc).2.coins }
          ((rec.passed btc).1.outcome.changed ||
            (rec.passed btc).2.outcome.changed)).coins ∧
      (rec.onChainUpdate btc crate).fetches =
        rec.fetches ++
          ((rec.passed btc).1.outcome.toFetch ++
            (rec.passed btc).2.outcome.toFetch) ∧
      ∀ height, (rec.onChainUpdate btc crate).headers.header btc height =
        rec.headers.header btc height := by
  simp only [onChainUpdate, headerStoreReady, valid, ↓reduceIte, passed,
    queueMerkleFetches]
  split
  · refine ⟨rfl, by rw [fetches_commitChainUpdate], fun height => ?_⟩
    rw [header_requestExtendDown, headers_commitChainUpdate]
  · refine ⟨rfl, by rw [fetches_commitChainUpdate], fun height => ?_⟩
    rw [headers_commitChainUpdate]

theorem header_onChainUpdate
    (height : Nat) :
    (rec.onChainUpdate btc crate).headers.header btc height =
      rec.headers.header btc height := by
  cases valid : rec.headers.isValidated with
  | true =>
      exact (onChainUpdate_of_validated btc crate valid).2.2 height
  | false =>
      obtain ⟨events, told⟩ :=
        onChainUpdate_of_unvalidated btc crate valid
      rw [told]

theorem onChainUpdate_stamped
    (sound : rec.coins.Sound crate) :
    (rec.onChainUpdate btc crate).coins.Sound crate ∧
      CoinStore.Stamped btc rec.headers rec.coins.txStore
        (rec.onChainUpdate btc crate).coins.txStore := by
  cases valid : rec.headers.isValidated with
  | false =>
      obtain ⟨events, told⟩ :=
        onChainUpdate_of_unvalidated btc crate valid
      rw [told]
      exact ⟨sound, fun _ => .inl rfl⟩
  | true =>
      have promoted : (rec.passed btc).2.coins.Sound crate :=
        (sound.reverifyReminedEntries).resolvePendingClaims
      have stamped :
          CoinStore.Stamped btc rec.headers rec.coins.txStore
            (rec.passed btc).2.coins.txStore :=
        (CoinStore.stamped_reverifyReminedEntries rec.coins).trans
          (CoinStore.stamped_resolvePendingClaims _)
      obtain ⟨committed, same⟩ :=
        commitChainUpdate_same
          { rec with coins := (rec.passed btc).2.coins } promoted
          ((rec.passed btc).1.outcome.changed ||
            (rec.passed btc).2.outcome.changed)
      rw [(onChainUpdate_of_validated btc crate valid).1]
      refine ⟨committed, fun txid => ?_⟩
      rw [same txid]
      exact stamped txid

theorem onChainUpdate_frozen
    (sound : rec.coins.Sound crate)
    (failed :
      rec.coins.txStore.inclusionOf txid =
        some (.verifyFailed height blockHash))
    (stays : rec.headers.blockHash btc height = some blockHash) :
    (rec.onChainUpdate btc crate).coins.txStore.inclusionOf txid =
        some (.verifyFailed height blockHash) ∧
      ∃ fetched, (rec.onChainUpdate btc crate).fetches =
          rec.fetches ++ fetched ∧
        ∀ claim ∈ fetched, claim.txid ≠ txid := by
  cases valid : rec.headers.isValidated with
  | false =>
      obtain ⟨events, told⟩ :=
        onChainUpdate_of_unvalidated btc crate valid
      rw [told]
      exact ⟨failed, [], by simp, by simp⟩
  | true =>
      have promoted : (rec.passed btc).2.coins.Sound crate :=
        (sound.reverifyReminedEntries).resolvePendingClaims
      have first :=
        CoinStore.untouched_reverifyReminedEntries failed stays
      have second :=
        CoinStore.untouched_resolvePendingClaims btc rec.headers first.1
      obtain ⟨coins, fetches, -⟩ := onChainUpdate_of_validated btc crate valid
      refine ⟨?_, _, fetches, ?_⟩
      · rw [coins, (commitChainUpdate_same
          { rec with coins := (rec.passed btc).2.coins } promoted _).2 txid]
        exact second.1
      · intro claim listed
        rcases List.mem_append.mp listed with early | late
        · exact first.2 claim early
        · exact second.2 claim late

theorem retryReorgedMerkleClaim_eq
    (btc : Bitcoin Raw)
    (crate : TxCrate)
    (rec : Reconciler Backend HeaderRows Raw)
    (claim : ClaimAt) :
    rec.retryReorgedMerkleClaim btc crate claim = rec ∨
      rec.retryReorgedMerkleClaim btc crate claim =
        rec.onChainUpdate btc crate := by
  unfold retryReorgedMerkleClaim
  split
  · split
    · exact .inr rfl
    · exact .inl rfl
  · exact .inl rfl

theorem resolveTxMerkleTarget_eq_some
    {target : MerkleTarget}
    (resolved :
      rec.resolveTxMerkleTarget btc txid height = some target) :
    ∃ header, rec.headers.header btc height = some header ∧
      target = ⟨txid, height, btc.blockHash header, header.merkleRoot⟩ ∧
      rec.coins.txStore.inclusionOf txid =
        some (.confirmedUnverified height (btc.blockHash header)) := by
  unfold resolveTxMerkleTarget at resolved
  split at resolved
  · cases resolved
  · rename_i root hash found
    obtain ⟨header, stored, same⟩ := Option.map_eq_some_iff.mp found
    cases same
    split at resolved
    · rename_i entryHeight entryHash claimed
      split at resolved
      · rename_i matches_
        obtain ⟨rfl, rfl⟩ := matches_
        cases resolved
        exact ⟨header, stored, rfl, claimed⟩
      · cases resolved
    · cases resolved

/-- The state a judged proof puts its transaction in. -/
def verdict
    (hashPair : TxMerkleNode → TxMerkleNode → TxMerkleNode)
    (target : MerkleTarget)
    (branch : List TxMerkleNode)
    (pos : UInt32) : Inclusion :=
  if verifyMerkleBranch hashPair target.txid branch pos
      target.expectedRoot then
    .verified target.height target.blockHash
  else
    .verifyFailed target.height target.blockHash

theorem applyTxMerkle_verdict
    (hashPair : TxMerkleNode → TxMerkleNode → TxMerkleNode)
    (rec : Reconciler Backend HeaderRows Raw)
    (sound : rec.coins.Sound crate)
    (target : MerkleTarget)
    (branch : List TxMerkleNode)
    (pos : UInt32) :
    (rec.applyTxMerkle crate hashPair target branch pos).coins.Sound
        crate ∧
      ∀ txid,
        (rec.applyTxMerkle crate hashPair target branch
            pos).coins.txStore.inclusionOf txid =
          if target.txid = txid then
            (rec.coins.txStore.inclusionOf txid).map
              (fun _ => verdict hashPair target branch pos)
          else
            rec.coins.txStore.inclusionOf txid := by
  have moved (inclusion : Inclusion) : CoinStore.Sound crate
      { rec.coins with
        txStore :=
          rec.coins.txStore.updateInclusion target.txid inclusion } :=
    ⟨CoinStore.keyed_updateInclusion sound.keyed _ _, sound.slots⟩
  unfold applyTxMerkle verdict
  dsimp only
  split
  · obtain ⟨committed, same⟩ :=
      commitChainUpdate_same
        { rec with
          coins :=
            { rec.coins with
              txStore :=
                rec.coins.txStore.updateInclusion target.txid
                  (.verified target.height target.blockHash) } }
        (moved _) true
    refine ⟨committed, fun txid => ?_⟩
    rw [same txid]
    exact TxStore.inclusionOf_updateInclusion ..
  · obtain ⟨committed, same⟩ :=
      persist_generate_same
        (moved (.verifyFailed target.height target.blockHash))
    refine ⟨committed, fun txid => ?_⟩
    rw [same txid]
    exact TxStore.inclusionOf_updateInclusion ..

@[simp] theorem headers_applyTxMerkle :
    (rec.applyTxMerkle crate hashPair target branch pos).headers =
      rec.headers := by
  unfold applyTxMerkle
  dsimp only
  split
  · exact headers_commitChainUpdate true
  · rfl

@[simp] theorem fetches_applyTxMerkle :
    (rec.applyTxMerkle crate hashPair target branch pos).fetches =
      rec.fetches := by
  unfold applyTxMerkle
  dsimp only
  split
  · exact fetches_commitChainUpdate true
  · rfl

/-- The slot of a fetch is free again. -/
def freed
    (rec : Reconciler Backend HeaderRows Raw)
    (claim : ClaimAt) : Reconciler Backend HeaderRows Raw :=
  { rec with coins := rec.coins.clearMerkleInFlight claim }

/--
An outcome frees its slot and then does nothing but tell, runs a pass, or, for
a proof with a target, judges it.
-/
theorem handleMerkleOutcome_cases
    (btc : Bitcoin Raw)
    (crate : TxCrate)
    (hashPair : TxMerkleNode → TxMerkleNode → TxMerkleNode)
    (rec : Reconciler Backend HeaderRows Raw)
    (outcome : MerkleOutcome) :
    (∃ events, rec.handleMerkleOutcome btc crate hashPair outcome =
        { rec.freed outcome.claim with events := events }) ∨
      rec.handleMerkleOutcome btc crate hashPair outcome =
        (rec.freed outcome.claim).onChainUpdate btc crate ∨
      ∃ txid height branch pos target,
        outcome = .proof txid height branch pos ∧
        rec.headers.isValidated = true ∧
        (rec.freed ⟨txid, height⟩).resolveTxMerkleTarget btc txid height =
          some target ∧
        rec.handleMerkleOutcome btc crate hashPair outcome =
          (rec.freed ⟨txid, height⟩).applyTxMerkle crate hashPair target
            branch pos := by
  have retried (claim : ClaimAt) :
      (∃ events, (rec.freed claim).retryReorgedMerkleClaim btc crate claim =
          { rec.freed claim with events := events }) ∨
        (rec.freed claim).retryReorgedMerkleClaim btc crate claim =
          (rec.freed claim).onChainUpdate btc crate := by
    rcases retryReorgedMerkleClaim_eq btc crate (rec.freed claim) claim with
      same | passed
    · exact .inl ⟨rec.events, same⟩
    · exact .inr passed
  cases outcome with
  | failed txid height =>
      exact (retried ⟨txid, height⟩).imp_right .inl
  | proof txid height branch pos =>
      simp only [handleMerkleOutcome, handleTxMerkle, MerkleOutcome.claim]
      rw [← freed]
      cases valid : rec.headers.isValidated with
      | false =>
          left
          have refused :
              (rec.freed ⟨txid, height⟩).headers.isValidated = false :=
            valid
          simp only [headerStoreReady, refused, Bool.false_eq_true,
            ↓reduceIte]
          cases (rec.freed ⟨txid, height⟩).headers.validationFailedReason with
          | none =>
              exact ⟨rec.events, rfl⟩
          | some cause =>
              exact ⟨rec.events ++ [.headerStoreInvalid cause], rfl⟩
      | true =>
          have accepted :
              (rec.freed ⟨txid, height⟩).headers.isValidated = true :=
            valid
          simp only [headerStoreReady, accepted, ↓reduceIte]
          cases resolved :
              (rec.freed ⟨txid, height⟩).resolveTxMerkleTarget btc txid
                height with
          | none =>
              exact (retried ⟨txid, height⟩).imp_right .inl
          | some target =>
              exact .inr (.inr ⟨txid, height, branch, pos, target, rfl,
                trivial, resolved, rfl⟩)

theorem stampConfirmationTimes_same
    (sound : rec.coins.Sound crate) :
    (rec.stampConfirmationTimes btc).coins.Sound crate ∧
      ∀ txid,
        (rec.stampConfirmationTimes btc).coins.txStore.inclusionOf txid =
          rec.coins.txStore.inclusionOf txid := by
  simp only [stampConfirmationTimes, CoinStore.stampConfirmationTimes]
  split
  · exact ⟨sound, fun _ => rfl⟩
  · suffices stamped :
        ∀ (stamps : List (Txid × Nat)) (txs : TxStore Backend),
          txs.Keyed crate →
          (stamps.foldl
            (fun txs stamp => txs.updateTimestamp stamp.1 stamp.2)
            txs).Keyed crate ∧
          ∀ txid,
            (stamps.foldl
              (fun txs stamp => txs.updateTimestamp stamp.1 stamp.2)
              txs).inclusionOf txid = txs.inclusionOf txid by
      obtain ⟨keyed, same⟩ := stamped _ _ sound.keyed
      refine ⟨⟨CoinStore.keyed_persist keyed, sound.slots⟩, fun txid => ?_⟩
      rw [TxStore.inclusionOf_persist]
      exact same txid
    intro stamps
    induction stamps with
    | nil =>
        exact fun txs keyed => ⟨keyed, fun _ => rfl⟩
    | cons stamp rest inductionHypothesis =>
        intro txs keyed
        have named : (txs.updateTimestamp stamp.1 stamp.2).Keyed crate := by
          intro query entry stored
          rw [TxStore.get_updateTimestamp] at stored
          split at stored
          · obtain ⟨old, found, rfl⟩ := Option.map_eq_some_iff.mp stored
            exact keyed query old found
          · exact keyed query entry stored
        obtain ⟨keyedAfter, same⟩ := inductionHypothesis _ named
        refine ⟨keyedAfter, fun txid => ?_⟩
        rw [List.foldl_cons, same txid, TxStore.inclusionOf_updateTimestamp]

theorem cleared_shrinks
    (sound : coins.Sound crate)
    (hist : BTreeMap ScriptBuf History) :
    ((coins.handleHistoryResponse crate hist).2.generate crate).Sound
        crate ∧
      CoinStore.Shrinks coins.txStore
        ((coins.handleHistoryResponse crate hist).2.generate
          crate).txStore := by
  have folded := sound.handleHistoryResponse hist
  exact ⟨folded.generate,
    (CoinStore.shrinks_handleHistoryResponse sound.keyed hist).trans
      (CoinStore.shrinks_generate folded.keyed)⟩

theorem sound_step
    (btc : Bitcoin Raw)
    (hashPair : TxMerkleNode → TxMerkleNode → TxMerkleNode)
    (sound : rec.coins.Sound crate)
    (next : ScanStep HeaderRows Raw) :
    (rec.step btc crate hashPair next).coins.Sound crate := by
  cases next with
  | history connected hist =>
      exact (CoinStore.foldHistory_shrinks sound connected hist).1
  | cleared spk =>
      exact (cleared_shrinks sound _).1
  | txs txs =>
      exact sound.handleTxsResponse txs
  | broadcast tx =>
      exact sound.recordUnconfirmedTx tx
  | chainUpdate =>
      exact (onChainUpdate_stamped sound).1
  | merkle outcome =>
      have freedSound (claim : ClaimAt) :
          (rec.freed claim).coins.Sound crate :=
        ⟨sound.keyed, sound.slots⟩
      rcases handleMerkleOutcome_cases btc crate hashPair rec outcome with
        ⟨events, told⟩ | passed |
          ⟨txid, height, branch, pos, target, -, -, -, judged⟩
      · rw [step, told]
        exact freedSound _
      · rw [step, passed]
        exact (onChainUpdate_stamped (freedSound _)).1
      · rw [step, judged]
        exact (applyTxMerkle_verdict hashPair _ (freedSound _) target branch
          pos).1
  | requeue =>
      exact sound
  | stampTimes =>
      exact (stampConfirmationTimes_same sound).1
  | headers headers =>
      exact sound

/-- The step judges a proof of `txid` that checks against the chain. -/
def Proves
    (btc : Bitcoin Raw)
    (hashPair : TxMerkleNode → TxMerkleNode → TxMerkleNode)
    (rec : Reconciler Backend HeaderRows Raw)
    (next : ScanStep HeaderRows Raw)
    (txid : Txid)
    (height : Nat)
    (blockHash : BlockHash) : Prop :=
  ∃ branch pos header,
    next = .merkle (.proof txid height branch pos) ∧
    rec.headers.isValidated = true ∧
    rec.headers.header btc height = some header ∧
    btc.blockHash header = blockHash ∧
    verifyMerkleBranch hashPair txid branch pos header.merkleRoot = true

theorem verified_step
    (sound : rec.coins.Sound crate)
    (verified :
      (rec.step btc crate hashPair next).coins.txStore.inclusionOf txid =
        some (.verified height blockHash)) :
    rec.coins.txStore.inclusionOf txid =
        some (.verified height blockHash) ∨
      rec.Proves btc hashPair next txid height blockHash := by
  -- Everything but a judged proof leaves, drops, demotes or stamps.
  have ofShrinks
      {after : TxStore Backend}
      (shrinks : CoinStore.Shrinks rec.coins.txStore after)
      (isVerified :
        after.inclusionOf txid = some (.verified height blockHash)) :
      rec.coins.txStore.inclusionOf txid =
        some (.verified height blockHash) := by
    rcases shrinks.inclusionOf txid with same | gone | ⟨-, demoted⟩
    · rw [← same]
      exact isVerified
    · rw [gone] at isVerified
      cases isVerified
    · rw [demoted] at isVerified
      cases isVerified
  have ofStamped
      {headers : HeaderStore HeaderRows Raw}
      {after : TxStore Backend}
      (stamped :
        CoinStore.Stamped btc headers rec.coins.txStore after)
      (isVerified :
        after.inclusionOf txid = some (.verified height blockHash)) :
      rec.coins.txStore.inclusionOf txid =
        some (.verified height blockHash) := by
    rcases stamped txid with same | ⟨_, _, -, restamped⟩
    · rw [← same]
      exact isVerified
    · rw [restamped] at isVerified
      cases isVerified
  have ofAdded
      {after : TxStore Backend}
      (added :
        after.inclusionOf txid = rec.coins.txStore.inclusionOf txid ∨
          rec.coins.txStore.inclusionOf txid = none ∧
            after.inclusionOf txid = some .unconfirmed)
      (isVerified :
        after.inclusionOf txid = some (.verified height blockHash)) :
      rec.coins.txStore.inclusionOf txid =
        some (.verified height blockHash) := by
    rcases added with same | ⟨-, unconfirmed⟩
    · rw [← same]
      exact isVerified
    · rw [unconfirmed] at isVerified
      cases isVerified
  cases next with
  | history connected hist =>
      exact .inl (ofShrinks
        (CoinStore.foldHistory_shrinks sound connected hist).2 verified)
  | cleared spk =>
      exact .inl (ofShrinks (cleared_shrinks sound _).2 verified)
  | txs txs =>
      exact .inl (ofAdded
        (CoinStore.inclusionOf_handleTxsResponse sound txs txid) verified)
  | broadcast tx =>
      exact .inl (ofAdded
        (CoinStore.inclusionOf_recordUnconfirmedTx sound tx txid) verified)
  | chainUpdate =>
      exact .inl (ofStamped (onChainUpdate_stamped sound).2 verified)
  | merkle outcome =>
      have freedSound (claim : ClaimAt) :
          (rec.freed claim).coins.Sound crate :=
        ⟨sound.keyed, sound.slots⟩
      rcases handleMerkleOutcome_cases btc crate hashPair rec outcome with
        ⟨events, told⟩ | passed |
          ⟨name, claimed, branch, pos, target, rfl, valid, resolved, judged⟩
      · rw [step, told] at verified
        exact .inl verified
      · rw [step, passed] at verified
        exact .inl (ofStamped
          (onChainUpdate_stamped (freedSound outcome.claim)).2 verified)
      · rw [step, judged, (applyTxMerkle_verdict hashPair _
          (freedSound ⟨name, claimed⟩) target branch pos).2 txid] at verified
        obtain ⟨header, stored, rfl, -⟩ :=
          resolveTxMerkleTarget_eq_some resolved
        split at verified
        · rename_i here
          have sameTxid : name = txid := here
          subst name
          obtain ⟨_, -, isVerdict⟩ := Option.map_eq_some_iff.mp verified
          unfold verdict at isVerdict
          split at isVerdict
          · rename_i checks
            cases isVerdict
            exact .inr ⟨branch, pos, header, rfl, valid, stored, rfl, checks⟩
          · cases isVerdict
        · exact .inl verified
  | requeue =>
      exact .inl verified
  | stampTimes =>
      rw [step, (stampConfirmationTimes_same sound).2 txid] at verified
      exact .inl verified
  | headers headers =>
      exact .inl verified

/-- A chain-update pass, an outcome or a chain that keeps the block. -/
def Follows
    (btc : Bitcoin Raw)
    (height : Nat)
    (blockHash : BlockHash) : ScanStep HeaderRows Raw → Prop
  | .chainUpdate | .merkle _ | .requeue | .stampTimes => True
  | .headers headers => headers.blockHash btc height = some blockHash
  | .history _ _ | .cleared _ | .txs _ | .broadcast _ => False

/-- A refused proof on a chain that still has its block. -/
structure Frozen
    (btc : Bitcoin Raw)
    (rec : Reconciler Backend HeaderRows Raw)
    (txid : Txid)
    (height : Nat)
    (blockHash : BlockHash) : Prop where
  failed :
    rec.coins.txStore.inclusionOf txid =
      some (.verifyFailed height blockHash)
  stays : rec.headers.blockHash btc height = some blockHash

/-- What was issued between two states has no fetch of the transaction. -/
def NoFetch
    (txid : Txid)
    (before after : Reconciler Backend HeaderRows Raw) : Prop :=
  ∃ fetched, after.fetches = before.fetches ++ fetched ∧
    ∀ claim ∈ fetched, claim.txid ≠ txid

theorem Frozen.onChainUpdate
    (sound : rec.coins.Sound crate)
    (frozen : rec.Frozen btc txid height blockHash) :
    (rec.onChainUpdate btc crate).Frozen btc txid height blockHash ∧
      NoFetch txid rec (rec.onChainUpdate btc crate) := by
  obtain ⟨failed, noFetch⟩ :=
    onChainUpdate_frozen sound frozen.failed frozen.stays
  refine ⟨⟨failed, ?_⟩, noFetch⟩
  rw [HeaderStore.blockHash, header_onChainUpdate]
  exact frozen.stays

theorem frozen_step
    (hashPair : TxMerkleNode → TxMerkleNode → TxMerkleNode)
    (sound : rec.coins.Sound crate)
    (frozen : rec.Frozen btc txid height blockHash)
    (follows : Follows btc height blockHash next) :
    (rec.step btc crate hashPair next).Frozen btc txid height blockHash ∧
      NoFetch txid rec (rec.step btc crate hashPair next) := by
  have nothing : NoFetch txid rec rec := ⟨[], by simp, by simp⟩
  cases next with
  | history connected hist =>
      cases follows
  | cleared spk =>
      cases follows
  | txs txs =>
      cases follows
  | broadcast tx =>
      cases follows
  | chainUpdate =>
      exact frozen.onChainUpdate sound
  | merkle outcome =>
      have freedSound (claim : ClaimAt) :
          (rec.freed claim).coins.Sound crate :=
        ⟨sound.keyed, sound.slots⟩
      have freedFrozen (claim : ClaimAt) :
          (rec.freed claim).Frozen btc txid height blockHash :=
        ⟨frozen.failed, frozen.stays⟩
      rcases handleMerkleOutcome_cases btc crate hashPair rec outcome with
        ⟨events, told⟩ | passed |
          ⟨name, claimed, branch, pos, target, rfl, -, resolved, judged⟩
      · rw [step, told]
        exact ⟨⟨frozen.failed, frozen.stays⟩, nothing⟩
      · rw [step, passed]
        exact (freedFrozen _).onChainUpdate (freedSound _)
      · obtain ⟨header, -, rfl, isClaimed⟩ :=
          resolveTxMerkleTarget_eq_some resolved
        have other : name ≠ txid := by
          rintro rfl
          rw [(freedFrozen _).failed] at isClaimed
          cases isClaimed
        rw [step, judged]
        refine ⟨⟨?_, ?_⟩, ?_⟩
        · rw [(applyTxMerkle_verdict hashPair _ (freedSound _) _ branch pos).2,
            if_neg other]
          exact frozen.failed
        · rw [headers_applyTxMerkle]
          exact frozen.stays
        · rw [NoFetch, fetches_applyTxMerkle]
          exact nothing
  | requeue =>
      refine ⟨⟨frozen.failed, frozen.stays⟩, _, rfl, ?_⟩
      intro claim listed
      obtain ⟨⟨name, inclusion⟩, inSnapshot, isClaim⟩ :=
        List.mem_filterMap.mp listed
      have stored := CoinStore.mem_snapshotInclusions.mp inSnapshot
      cases inclusion with
      | confirmedUnverified claimed hash =>
          cases isClaim
          rintro rfl
          rw [frozen.failed] at stored
          cases stored
      | unconfirmed =>
          cases isClaim
      | verified claimed hash =>
          cases isClaim
      | verifyFailed claimed hash =>
          cases isClaim
  | stampTimes =>
      refine ⟨⟨?_, frozen.stays⟩, nothing⟩
      rw [step, (stampConfirmationTimes_same sound).2 txid]
      exact frozen.failed
  | headers headers =>
      exact ⟨⟨frozen.failed, follows⟩, nothing⟩

theorem sound_run
    (btc : Bitcoin Raw)
    (hashPair : TxMerkleNode → TxMerkleNode → TxMerkleNode)
    (sound : rec.coins.Sound crate)
    (steps : List (ScanStep HeaderRows Raw)) :
    (rec.run btc crate hashPair steps).coins.Sound crate := by
  induction steps generalizing rec with
  | nil =>
      exact sound
  | cons next rest inductionHypothesis =>
      exact inductionHypothesis (sound_step btc hashPair sound next)

omit [PersistenceBackend Backend Txid TxEntry] in
theorem sound_fresh
    (addressStore : AddressStore)
    (labels : BTreeMap OutPoint String)
    (backend : Backend)
    (headers : HeaderStore HeaderRows Raw) :
    (fresh addressStore labels backend headers).coins.Sound crate where
  keyed := by
    intro txid entry stored
    simp [fresh, CoinStore.new, TxStore.get, RamStore.get,
      RamStore.empty] at stored
  slots := by
    intro update listed
    cases listed

variable {steps : List (ScanStep HeaderRows Raw)}

theorem verified_run
    (sound : rec.coins.Sound crate)
    (verified :
      (rec.run btc crate hashPair steps).coins.txStore.inclusionOf txid =
        some (.verified height blockHash)) :
    rec.coins.txStore.inclusionOf txid =
        some (.verified height blockHash) ∨
      ∃ earlier next later, steps = earlier ++ next :: later ∧
        (rec.run btc crate hashPair earlier).Proves btc hashPair next txid
          height blockHash := by
  induction steps using List.reverseRecOn with
  | nil =>
      exact .inl verified
  | append_singleton steps next inductionHypothesis =>
      rw [run, List.foldl_append, List.foldl_cons, List.foldl_nil,
        ← run] at verified
      rcases verified_step (sound_run btc hashPair sound steps) verified with
        before | proven
      · refine (inductionHypothesis before).imp_right ?_
        rintro ⟨earlier, judged, later, rfl, proven⟩
        exact ⟨earlier, judged, later ++ [next], by simp, proven⟩
      · exact .inr ⟨steps, next, [], rfl, proven⟩

theorem frozen_run
    (hashPair : TxMerkleNode → TxMerkleNode → TxMerkleNode)
    (sound : rec.coins.Sound crate)
    (frozen : rec.Frozen btc txid height blockHash)
    (follow : ∀ next ∈ steps, Follows btc height blockHash next) :
    (rec.run btc crate hashPair steps).Frozen btc txid height blockHash ∧
      NoFetch txid rec (rec.run btc crate hashPair steps) := by
  induction steps using List.reverseRecOn with
  | nil =>
      exact ⟨frozen, [], by simp [run], by simp⟩
  | append_singleton steps next inductionHypothesis =>
      obtain ⟨frozenBefore, fetched, issued, others⟩ :=
        inductionHypothesis (fun earlier listed =>
          follow earlier (List.mem_append_left _ listed))
      obtain ⟨frozenAfter, last, issuedLast, othersLast⟩ :=
        frozen_step hashPair
          (sound_run btc hashPair sound steps) frozenBefore
          (follow next (by simp))
      rw [run, List.foldl_append, List.foldl_cons, List.foldl_nil, ← run]
      refine ⟨frozenAfter, fetched ++ last, ?_, ?_⟩
      · rw [issuedLast, issued, List.append_assoc]
      · intro claim listed
        rcases List.mem_append.mp listed with early | late
        · exact others claim early
        · exact othersLast claim late

/--
Whatever the server sends and however the header store moves, a transaction is
verified only by a proof that checked against the validated chain, and a
refused proof is neither fetched, promoted nor changed while its block stays.
-/
theorem verified_proven_and_failed_frozen
    (btc : Bitcoin Raw)
    (crate : TxCrate)
    (hashPair : TxMerkleNode → TxMerkleNode → TxMerkleNode)
    (addressStore : AddressStore)
    (labels : BTreeMap OutPoint String)
    (backend : Backend)
    (headers : HeaderStore HeaderRows Raw)
    (steps : List (ScanStep HeaderRows Raw))
    (txid : Txid)
    (height : Nat)
    (blockHash : BlockHash) :
    let start := fresh addressStore labels backend headers
    let reached := start.run btc crate hashPair steps
    (reached.coins.txStore.inclusionOf txid =
        some (.verified height blockHash) →
      ∃ earlier next later, steps = earlier ++ next :: later ∧
        (start.run btc crate hashPair earlier).Proves btc hashPair next txid
          height blockHash) ∧
    (reached.Frozen btc txid height blockHash →
      ∀ passes : List (ScanStep HeaderRows Raw),
        (∀ next ∈ passes, Follows btc height blockHash next) →
        (reached.run btc crate hashPair passes).coins.txStore.inclusionOf
            txid =
          some (.verifyFailed height blockHash) ∧
        NoFetch txid reached (reached.run btc crate hashPair passes)) := by
  intro start reached
  have sound : start.coins.Sound crate :=
    sound_fresh addressStore labels backend headers
  refine ⟨?_, ?_⟩
  · intro verified
    rcases verified_run sound verified with before | proven
    · simp [start, fresh, CoinStore.new, TxStore.inclusionOf, TxStore.get,
        RamStore.get, RamStore.empty] at before
    · exact proven
  · intro frozen passes follow
    obtain ⟨stillFrozen, noFetch⟩ :=
      frozen_run hashPair
        (sound_run btc hashPair sound steps) frozen follow
    exact ⟨stillFrozen.failed, noFetch⟩

/-- A validated store of the given headers, for evaluating the model. -/
def sampleHeaders (rows : List (Nat × Header)) :
    HeaderStore (RowBackend Nat Header) Header where
  network := .regtest
  checkpoint := none
  inner :=
    { store := RamStore.open_ ⟨(∅ : BTreeMap Nat Header).insertAll rows, []⟩
      validationState := .valid }
  writerToken := 0
  stopped := false
  extendDown := none
  released := []

/-- A header whose block holds one transaction, named by its merkle root. -/
def sampleHeader (root nonce : Nat) : Header :=
  ⟨0, 0, root, 50, 0, nonce⟩

/-- A fresh scan over a chain with blocks at heights one and two. -/
def sampleStart :
    Reconciler (RowBackend Txid TxEntry) (RowBackend Nat Header) Header :=
  fresh AddressStore.sample ∅ ⟨∅, []⟩
    (sampleHeaders [(1, sampleHeader 7 100), (2, sampleHeader 8 200)])

/-- A transaction is reported at height one, received and stamped. -/
def sampleClaim : List (ScanStep (RowBackend Nat Header) Header) :=
  [.history true ((∅ : BTreeMap ScriptBuf History).insert 0 [(7, some 1)]),
    .txs [⟨2, 7, [], [⟨5, 0⟩]⟩],
    .chainUpdate]

/-- A transaction alone in its block is verified by the empty branch. -/
theorem verified_proven_alone :
    let reached :=
      sampleStart.run Bitcoin.sample TxCrate.sample (· + ·)
        (sampleClaim ++ [.merkle (.proof 7 1 [] 0)])
    reached.coins.txStore.inclusionOf 7 = some (.verified 1 100) ∧
      ∃ earlier next later,
        sampleClaim ++ [.merkle (.proof 7 1 [] 0)] =
          earlier ++ next :: later ∧
        (sampleStart.run Bitcoin.sample TxCrate.sample (· + ·)
          earlier).Proves Bitcoin.sample (· + ·) next 7 1 100 := by
  have proven :=
    verified_proven_and_failed_frozen Bitcoin.sample TxCrate.sample (· + ·)
      AddressStore.sample ∅ (⟨∅, []⟩ : RowBackend Txid TxEntry)
      (sampleHeaders [(1, sampleHeader 7 100), (2, sampleHeader 8 200)])
      (sampleClaim ++ [.merkle (.proof 7 1 [] 0)]) 7 1 100
  rw [← sampleStart] at proven
  intro reached
  have verified :
      reached.coins.txStore.inclusionOf 7 = some (.verified 1 100) := by
    decide +kernel
  exact ⟨verified, proven.1 verified⟩

end Reconciler

end Bwk
