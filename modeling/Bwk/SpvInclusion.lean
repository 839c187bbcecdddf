import Mathlib
import Bwk.MerkleProof
import Bwk.ReconcilerSafety

namespace Bwk

open Merkle

/-!
# Verified transactions are in their blocks

A branch of any length that climbs from a transaction to the root of a block
starts at one of its transactions: the check does not ask how high the tree of
the block is, but no transaction is named by the hash of two nodes.
-/

namespace Merkle

variable {Node : Type} {hashPair : Node → Node → Node}

/-- A node above a level is the hash of two nodes of it. -/
theorem mem_parents
    {nodes : List Node}
    {node : Node}
    (member : node ∈ parents hashPair nodes) :
    ∃ left ∈ nodes, ∃ right ∈ nodes, node = hashPair left right := by
  induction nodes using parents.induct with
  | case1 =>
      cases member
  | case2 last =>
      exact ⟨last, by simp, last, by simp, List.mem_singleton.mp member⟩
  | case3 left right rest inductionHypothesis =>
      rcases List.mem_cons.mp member with rfl | above
      · exact ⟨left, by simp, right, by simp, rfl⟩
      · obtain ⟨first, one, second, other, hashed⟩ :=
          inductionHypothesis above
        exact ⟨first, by simp [one], second, by simp [other], hashed⟩

theorem climb_concat
    (node last : Node)
    (siblings : List Node)
    (index : Nat) :
    ∃ position, climb hashPair node (siblings ++ [last]) index =
      parentOf hashPair (climb hashPair node siblings index) last
        position := by
  induction siblings generalizing node index with
  | nil =>
      exact ⟨index, rfl⟩
  | cons sibling siblings inductionHypothesis =>
      exact inductionHypothesis _ _

/-- What climbs to a node of the levels over some leaves, and is not itself
the hash of two nodes, is one of the leaves. -/
theorem mem_of_climb
    {leaves siblings : List Node}
    {node above : Node}
    {index level : Nat}
    (injective : ∀ left right left' right',
      hashPair left right = hashPair left' right' →
        left = left' ∧ right = right')
    (apart : ∀ leaf ∈ node :: leaves, ∀ left right,
      hashPair left right ≠ leaf)
    (reached : above ∈ (parents hashPair)^[level] leaves)
    (climbs : climb hashPair node siblings index = above) :
    node ∈ leaves := by
  induction siblings using List.reverseRecOn generalizing above level with
  | nil =>
      subst climbs
      cases level with
      | zero =>
          exact reached
      | succ level =>
          rw [Function.iterate_succ_apply'] at reached
          obtain ⟨left, -, right, -, hashed⟩ := mem_parents reached
          exact absurd hashed.symm (apart _ List.mem_cons_self left right)
  | append_singleton siblings last inductionHypothesis =>
      obtain ⟨position, step⟩ := climb_concat node last siblings index
      rw [step, parentOf] at climbs
      cases level with
      | zero =>
          have leaf := apart above (List.mem_cons_of_mem _ reached)
          split at climbs
          · exact absurd climbs (leaf _ _)
          · exact absurd climbs (leaf _ _)
      | succ level =>
          rw [Function.iterate_succ_apply'] at reached
          obtain ⟨left, one, right, other, hashed⟩ := mem_parents reached
          rw [hashed] at climbs
          split at climbs
          · exact inductionHypothesis one (injective _ _ _ _ climbs).1
          · exact inductionHypothesis other (injective _ _ _ _ climbs).2

theorem root_mem_level
    {leaves : List Node}
    {top : Node}
    (height : Nat)
    (found : rootAt hashPair height leaves = some top) :
    top ∈ (parents hashPair)^[height] leaves := by
  induction height generalizing leaves with
  | zero =>
      exact List.mem_of_mem_head? found
  | succ height inductionHypothesis =>
      exact inductionHypothesis found

end Merkle

variable {Backend HeaderRows Raw : Type}
variable [PersistenceBackend Backend Txid TxEntry]

/-- Whatever the server sends and however the header store moves, a transaction
verified in a block is one of its transactions, and the block was in the
validated chain. -/
theorem verified_in_block
    (btc : Bitcoin Raw)
    (crate : TxCrate)
    {hashPair : TxMerkleNode → TxMerkleNode → TxMerkleNode}
    (addressStore : AddressStore)
    (labels : BTreeMap OutPoint String)
    (backend : Backend)
    (headers : HeaderStore HeaderRows Raw)
    (steps : List (ScanStep HeaderRows Raw))
    {txid : Txid}
    {txids : List Txid}
    {height : Nat}
    {blockHash : BlockHash}
    (collisionFree : CollisionFree hashPair)
    (apart : ∀ leaf ∈ txid :: txids, ∀ left right,
      hashPair left right ≠ leaf)
    (holds : ∀ header, btc.blockHash header = blockHash →
      Merkle.root hashPair txids = some header.merkleRoot) :
    let after := (Reconciler.fresh addressStore labels backend headers).run btc
      crate hashPair
    (after steps).coins.txStore.inclusionOf txid =
        some (.verified height blockHash) →
      txid ∈ txids ∧
        ∃ earlier later header, steps = earlier ++ later ∧
          (after earlier).headers.isValidated = true ∧
          (after earlier).headers.header btc height = some header ∧
          btc.blockHash header = blockHash := by
  intro after verified
  rcases Reconciler.verified_run
      (Reconciler.sound_fresh addressStore labels backend headers) verified
    with before | ⟨earlier, next, later, split, branch, pos, header, -,
      validated, found, named, accepted⟩
  · simp [Reconciler.fresh, CoinStore.new, TxStore.inclusionOf, TxStore.get,
      RamStore.get, RamStore.empty] at before
  · obtain ⟨-, climbs⟩ := verifyMerkleBranch_eq_true.mp accepted
    exact ⟨mem_of_climb collisionFree apart
        (root_mem_level _ (holds header named)) climbs,
      earlier, next :: later, header, split, validated, found, named⟩

/-- Blocks named by their roots, for evaluating the model. -/
def Bitcoin.rooted : Bitcoin Header :=
  { Bitcoin.sample with blockHash := Header.merkleRoot }

/-- A scan over a chain of one block, under a pairing of numbers for a hash. -/
def Reconciler.rootedAfter :
    List (ScanStep (RowBackend Nat Header) Header) →
      Reconciler (RowBackend Txid TxEntry) (RowBackend Nat Header) Header :=
  (fresh AddressStore.sample ∅ ⟨∅, []⟩
    (sampleHeaders [(1, sampleHeader 98 0)])).run
    Bitcoin.rooted TxCrate.sample (fun left right => Nat.pair left right + 10)

/-- One of the two transactions of the block is verified by the other. -/
theorem verified_in_block_pair :
    7 ∈ [7, 9] ∧
      ∃ earlier later header,
        Reconciler.sampleClaim ++ [.merkle (.proof 7 1 [9] 0)] =
          earlier ++ later ∧
        (Reconciler.rootedAfter earlier).headers.isValidated = true ∧
        (Reconciler.rootedAfter earlier).headers.header Bitcoin.rooted 1 =
          some header ∧
        Bitcoin.rooted.blockHash header = 98 := by
  have verified :
      (Reconciler.rootedAfter (Reconciler.sampleClaim ++
        [.merkle (.proof 7 1 [9] 0)])).coins.txStore.inclusionOf 7 =
          some (.verified 1 98) := by
    decide +kernel
  have apart : ∀ leaf ∈ 7 :: [7, 9], ∀ left right,
      Nat.pair left right + 10 ≠ leaf := by
    intro leaf listed left right
    have small : leaf < 10 := by
      revert listed leaf
      decide
    omega
  have holds : ∀ header, Bitcoin.rooted.blockHash header = 98 →
      Merkle.root (fun left right => Nat.pair left right + 10) [7, 9] =
        some header.merkleRoot := by
    intro header named
    rw [show header.merkleRoot = 98 from named]
    decide
  exact verified_in_block Bitcoin.rooted TxCrate.sample AddressStore.sample ∅
    (⟨∅, []⟩ : RowBackend Txid TxEntry) _ _
    (fun left right left' right' same =>
      Nat.pair_eq_pair.mp (Nat.add_right_cancel same))
    apart holds verified

end Bwk
