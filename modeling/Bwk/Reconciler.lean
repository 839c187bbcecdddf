import Bwk.CoinPasses
import Bwk.Listener

namespace Bwk

/-!
# Reconciling a scan with the validated chain

`electrum/src/reconcile.rs`: the pass between a coin store, which records what
the server reported, and a header store, which validates the chain.  A claimed
transaction is stamped with the block at its height, a proof is fetched, and
the proof decides.
-/

/-- How a proof fetch ended. -/
inductive MerkleOutcome where
  | proof (txid : Txid) (height : Nat) (branch : List Nat) (pos : UInt32)
  | failed (txid : Txid) (height : Nat)
  deriving Repr, DecidableEq

/-- The fetch an outcome ends. -/
def MerkleOutcome.claim : MerkleOutcome → ClaimAt
  | .proof txid height _ _ | .failed txid height => ⟨txid, height⟩

/--
Hash a leaf up through its siblings: the lowest bit of the position says on
which side the node stands.  `hashPair` is the double SHA-256 of two nodes.
-/
def foldBranch
    (hashPair : TxMerkleNode → TxMerkleNode → TxMerkleNode) :
    TxMerkleNode → Nat → List TxMerkleNode → TxMerkleNode
  | node, _, [] => node
  | node, index, sibling :: rest =>
      foldBranch hashPair
        (if index % 2 = 0 then hashPair node sibling
        else hashPair sibling node)
        (index / 2) rest

/--
Verify a merkle branch against a root.  A branch too short to address the
position is refused.
-/
def verifyMerkleBranch
    (hashPair : TxMerkleNode → TxMerkleNode → TxMerkleNode)
    (txid : Txid)
    (branch : List TxMerkleNode)
    (pos : UInt32)
    (expectedRoot : TxMerkleNode) : Bool :=
  if branch.length < 32 ∧ 2 ^ branch.length ≤ pos.toNat then
    false
  else
    foldBranch hashPair txid pos.toNat branch = expectedRoot

namespace HeaderStore

variable {HeaderRows Raw : Type}

def isValidated (headers : HeaderStore HeaderRows Raw) : Bool :=
  headers.inner.validationState = .valid

/-- Why the stored chain was refused, if it was. -/
def validationFailedReason
    (headers : HeaderStore HeaderRows Raw) : Option InvalidCause :=
  match headers.inner.validationState with
  | .invalid cause => some cause
  | _ => none

def merkleRootAndHash
    (btc : Bitcoin Raw)
    (headers : HeaderStore HeaderRows Raw)
    (height : Nat) : Option (TxMerkleNode × BlockHash) :=
  (headers.header btc height).map
    (fun header => (header.merkleRoot, btc.blockHash header))

end HeaderStore

/-- What the reconciler tells the wallet. -/
inductive ReconcilerEvent where
  | headerStoreUpdated
  | headerStoreInvalid (cause : InvalidCause)
  | merkleProofInvalid (claim : ClaimAt)
  deriving Repr, DecidableEq

/-- A coin store and the header store it is reconciled with. -/
structure Reconciler (Backend HeaderRows Raw : Type) where
  coins : CoinStore Backend
  headers : HeaderStore HeaderRows Raw
  /-- Every proof fetch issued. -/
  fetches : List ClaimAt
  /-- Every event sent. -/
  events : List ReconcilerEvent

/-- What a proof is judged against. -/
structure MerkleTarget where
  txid : Txid
  height : Nat
  blockHash : BlockHash
  expectedRoot : TxMerkleNode
  deriving Repr, DecidableEq

namespace Reconciler

variable {Backend HeaderRows Raw : Type}
variable [PersistenceBackend Backend Txid TxEntry]
variable (btc : Bitcoin Raw) (crate : TxCrate)
variable (hashPair : TxMerkleNode → TxMerkleNode → TxMerkleNode)

/-- Refuse to promote against an unvalidated chain, and say why. -/
def headerStoreReady
    (rec : Reconciler Backend HeaderRows Raw) :
    Bool × Reconciler Backend HeaderRows Raw :=
  if rec.headers.isValidated then
    (true, rec)
  else
    match rec.headers.validationFailedReason with
    | some cause =>
        (false, { rec with events := rec.events ++ [.headerStoreInvalid cause] })
    | none => (false, rec)

/-- Persist and regenerate what a pass changed, and tell. -/
def commitChainUpdate
    (rec : Reconciler Backend HeaderRows Raw)
    (changed : Bool) : Reconciler Backend HeaderRows Raw :=
  if changed then
    { rec with
      coins :=
        { rec.coins with txStore := rec.coins.txStore.persist }.generate crate
      events := rec.events ++ [.headerStoreUpdated] }
  else
    rec

def queueMerkleFetches
    (rec : Reconciler Backend HeaderRows Raw)
    (toFetch : List ClaimAt) : Reconciler Backend HeaderRows Raw :=
  { rec with fetches := rec.fetches ++ toFetch }

/-- Reopen, promote, and fetch what the chain allows. -/
def onChainUpdate
    (rec : Reconciler Backend HeaderRows Raw) :
    Reconciler Backend HeaderRows Raw :=
  match rec.headerStoreReady with
  | (false, told) => told
  | (true, ready) =>
      let reverify := ready.coins.reverifyReminedEntries btc ready.headers
      let promote := reverify.coins.resolvePendingClaims btc ready.headers
      let committed :=
        { ready with coins := promote.coins }.commitChainUpdate crate
          (reverify.outcome.changed || promote.outcome.changed)
      let extended :=
        match promote.coins.pendingClaimHeights.head? with
        | some height =>
            { committed with
              headers := committed.headers.requestExtendDown height }
        | none => committed
      extended.queueMerkleFetches
        (reverify.outcome.toFetch ++ promote.outcome.toFetch)

/--
A fetch that ended without promoting may have ended because its block was
replaced: run a pass in that case.
-/
def retryReorgedMerkleClaim
    (rec : Reconciler Backend HeaderRows Raw)
    (claim : ClaimAt) : Reconciler Backend HeaderRows Raw :=
  match rec.coins.txStore.inclusionOf claim.txid with
  | some (.confirmedUnverified height blockHash) =>
      if height = claim.height ∧
          (rec.headers.blockHash btc claim.height).any
            (fun current => current ≠ blockHash) then
        rec.onChainUpdate btc crate
      else
        rec
  | _ => rec

/--
The target of a proof: the transaction is claimed at exactly this height and
its block is still the one of the chain.
-/
def resolveTxMerkleTarget
    (rec : Reconciler Backend HeaderRows Raw)
    (txid : Txid)
    (height : Nat) : Option MerkleTarget :=
  match rec.headers.merkleRootAndHash btc height with
  | none => none
  | some (expectedRoot, blockHash) =>
      match rec.coins.txStore.inclusionOf txid with
      | some (.confirmedUnverified entryHeight entryHash) =>
          if entryHeight = height ∧ entryHash = blockHash then
            some ⟨txid, height, blockHash, expectedRoot⟩
          else
            none
      | _ => none

/-- Judge the proof and move the transaction accordingly. -/
def applyTxMerkle
    (rec : Reconciler Backend HeaderRows Raw)
    (target : MerkleTarget)
    (branch : List TxMerkleNode)
    (pos : UInt32) : Reconciler Backend HeaderRows Raw :=
  let move (inclusion : Inclusion) : CoinStore Backend :=
    { rec.coins with
      txStore := rec.coins.txStore.updateInclusion target.txid inclusion }
  if verifyMerkleBranch hashPair target.txid branch pos
      target.expectedRoot then
    commitChainUpdate crate
      { rec with coins := move (.verified target.height target.blockHash) }
      true
  else
    let failed := move (.verifyFailed target.height target.blockHash)
    { rec with
      coins := { failed with txStore := failed.txStore.persist }.generate crate
      events :=
        rec.events ++ [.merkleProofInvalid ⟨target.txid, target.height⟩] }

/-- Verify a fetched proof. -/
def handleTxMerkle
    (rec : Reconciler Backend HeaderRows Raw)
    (txid : Txid)
    (height : Nat)
    (branch : List TxMerkleNode)
    (pos : UInt32) : Reconciler Backend HeaderRows Raw :=
  let freed :=
    { rec with coins := rec.coins.clearMerkleInFlight ⟨txid, height⟩ }
  match freed.headerStoreReady with
  | (false, told) => told
  | (true, ready) =>
      match ready.resolveTxMerkleTarget btc txid height with
      | none => ready.retryReorgedMerkleClaim btc crate ⟨txid, height⟩
      | some target => ready.applyTxMerkle crate hashPair target branch pos

/-- Apply one resolved fetch. -/
def handleMerkleOutcome
    (rec : Reconciler Backend HeaderRows Raw) :
    MerkleOutcome → Reconciler Backend HeaderRows Raw
  | .proof txid height branch pos =>
      rec.handleTxMerkle btc crate hashPair txid height branch pos
  | .failed txid height =>
      retryReorgedMerkleClaim btc crate
        { rec with coins := rec.coins.clearMerkleInFlight ⟨txid, height⟩ }
        ⟨txid, height⟩

/-- Ask again for every open proof. -/
def requeueConfirmedUnverified
    (rec : Reconciler Backend HeaderRows Raw) :
    Reconciler Backend HeaderRows Raw :=
  rec.queueMerkleFetches rec.coins.confirmedUnverifiedClaims

def stampConfirmationTimes
    (rec : Reconciler Backend HeaderRows Raw) :
    Reconciler Backend HeaderRows Raw :=
  { rec with coins := rec.coins.stampConfirmationTimes btc rec.headers }

end Reconciler

end Bwk
