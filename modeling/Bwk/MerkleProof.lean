import Bwk.MerkleTree
import Bwk.Reconciler

namespace Bwk

open Merkle

/-!
# What a merkle proof is worth

`verify_merkle_branch` accepts the branches of the transactions of a block, and
nothing else as long as its tree is high.
-/

variable {hashPair : TxMerkleNode → TxMerkleNode → TxMerkleNode}

theorem foldBranch_eq
    (node : TxMerkleNode)
    (index : Nat)
    (siblings : List TxMerkleNode) :
    foldBranch hashPair node index siblings =
      climb hashPair node siblings index := by
  induction siblings generalizing node index with
  | nil =>
      rfl
  | cons sibling rest inductionHypothesis =>
      rw [foldBranch, inductionHypothesis]
      rfl

/-- What it takes to be accepted: a position in reach, which a position of 32
bits is of any longer branch, and the root. -/
theorem verifyMerkleBranch_eq_true
    {txid : Txid}
    {siblings : List TxMerkleNode}
    {pos : UInt32}
    {expectedRoot : TxMerkleNode} :
    verifyMerkleBranch hashPair txid siblings pos expectedRoot = true ↔
      pos.toNat < 2 ^ siblings.length ∧
        climb hashPair txid siblings pos.toNat = expectedRoot := by
  rw [verifyMerkleBranch, foldBranch_eq]
  by_cases short : siblings.length < 32
  · by_cases inside : pos.toNat < 2 ^ siblings.length
    · rw [if_neg (by omega)]
      simp [inside]
    · rw [if_pos ⟨short, by omega⟩]
      simp [inside]
  · have inside : pos.toNat < 2 ^ siblings.length :=
      lt_of_lt_of_le pos.toNat_lt
        (Nat.pow_le_pow_right (by decide) (Nat.le_of_not_lt short))
    rw [if_neg fun guard => short guard.1]
    simp [inside]

def CollisionFree
    (hashPair : TxMerkleNode → TxMerkleNode → TxMerkleNode) : Prop :=
  ∀ left right left' right',
    hashPair left right = hashPair left' right' →
      left = left' ∧ right = right'

structure ProofsSound
    (hashPair : TxMerkleNode → TxMerkleNode → TxMerkleNode)
    (txids : List Txid)
    (blockRoot : TxMerkleNode) : Prop where
  complete :
    ∀ (index : UInt32) (txid : Txid),
      txids[index.toNat]? = some txid →
        verifyMerkleBranch hashPair txid
          (branch hashPair txids index.toNat) index blockRoot = true
  sound :
    ∀ (txid : Txid) (siblings : List TxMerkleNode) (pos : UInt32),
      siblings.length = heightOf txids.length →
        verifyMerkleBranch hashPair txid siblings pos blockRoot = true →
        pos.toNat < 2 ^ heightOf txids.length ∧
          (padded (heightOf txids.length) txids)[pos.toNat]? = some txid
  inReach :
    ∀ (txid : Txid) (siblings : List TxMerkleNode) (pos : UInt32)
      (expectedRoot : TxMerkleNode),
      siblings.length < 32 → 2 ^ siblings.length ≤ pos.toNat →
        verifyMerkleBranch hashPair txid siblings pos expectedRoot = false

variable {txids : List Txid} {blockRoot : TxMerkleNode}

theorem verifyMerkleBranch_complete
    (built : Merkle.root hashPair txids = some blockRoot)
    {index : UInt32}
    {txid : Txid}
    (found : txids[index.toNat]? = some txid) :
    verifyMerkleBranch hashPair txid (branch hashPair txids index.toNat) index
      blockRoot = true := by
  have inside := (List.getElem?_eq_some_iff.mp found).1
  have nonempty : txids ≠ [] := List.ne_nil_of_length_pos (by omega)
  have fits := length_le_pow_heightOf txids.length
  rw [verifyMerkleBranch_eq_true, branch, length_branchAt nonempty]
  refine ⟨by omega, ?_⟩
  have climbs := climb_branchAt hashPair found fits
  rw [Merkle.root] at built
  exact Option.some.inj (climbs.symm.trans built)

/-- An accepted proof as long as the tree is high opens the leaf at its
position, unless it shows a collision. -/
theorem verifyMerkleBranch_sound
    (built : Merkle.root hashPair txids = some blockRoot)
    (nonempty : txids ≠ [])
    {txid : Txid}
    {siblings : List TxMerkleNode}
    {pos : UInt32}
    (long : siblings.length = heightOf txids.length)
    (accepted :
      verifyMerkleBranch hashPair txid siblings pos blockRoot = true) :
    pos.toNat < 2 ^ heightOf txids.length ∧
      ((padded (heightOf txids.length) txids)[pos.toNat]? = some txid ∨
        Collision hashPair) := by
  obtain ⟨inside, climbs⟩ := verifyMerkleBranch_eq_true.mp accepted
  rw [long] at inside
  refine ⟨inside, ?_⟩
  rw [getElem?_padded nonempty inside]
  refine leaf_of_climb nonempty (length_le_pow_heightOf _) long inside ?_
  rw [climbs]
  exact built

/-- A block with transactions has a merkle root; the branches of its
transactions are accepted and, as long as the hash of two nodes is free of
collisions, no other branch as long as its tree is high. -/
theorem merkle_proofs_sound
    (collisionFree : CollisionFree hashPair)
    (txids : List Txid)
    (nonempty : txids ≠ []) :
    ∃ blockRoot,
      Merkle.root hashPair txids = some blockRoot ∧
        ProofsSound hashPair txids blockRoot := by
  obtain ⟨first, rest, rfl⟩ := List.exists_cons_of_ne_nil nonempty
  have built : Merkle.root hashPair (first :: rest) = _ :=
    climb_branchAt hashPair (List.getElem?_cons_zero)
      (length_le_pow_heightOf (first :: rest).length)
  refine ⟨_, built, ?_⟩
  refine
    { complete := fun index txid found =>
        verifyMerkleBranch_complete built found
      sound := fun txid siblings pos long accepted => ?_
      inReach := fun txid siblings pos expectedRoot short beyond => ?_ }
  · obtain ⟨inside, opened⟩ :=
      verifyMerkleBranch_sound built nonempty long accepted
    refine ⟨inside, opened.resolve_right ?_⟩
    rintro ⟨left, right, left', right', apart, same⟩
    obtain ⟨rfl, rfl⟩ := collisionFree left right left' right' same
    exact apart rfl
  · by_contra accepted
    have reached :=
      verifyMerkleBranch_eq_true.mp (Bool.eq_true_of_not_eq_false accepted)
    omega

/-- A block of three transactions, under a pairing of numbers for a hash. -/
theorem merkle_proofs_sound_three :
    ∃ blockRoot,
      Merkle.root Nat.pair [3, 5, 8] = some blockRoot ∧
        ProofsSound Nat.pair [3, 5, 8] blockRoot :=
  merkle_proofs_sound (fun _ _ _ _ same => Nat.pair_eq_pair.mp same) _
    (by decide)

end Bwk
