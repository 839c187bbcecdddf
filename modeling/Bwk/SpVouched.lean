import Bwk.SpReorg
import Bwk.SpWallet

namespace Bwk

/-!
# What the hash at a fork search vouches for

The hash on which a fork search stops vouches for everything recorded at or
below it.  What a scan learns from different fetches may belong to different
chains, so a wallet holds one chain only up to some height, and a scan carries
that on to the chain it sees if its search stops there or below.
-/

/-- The blocks that chains are made of.  A chain is extended to every height. -/
structure BlockTree where
  pays : BlockHash → OutPoint → Prop
  spends : BlockHash → OutPoint → Prop
  chains : (Nat → BlockHash) → Prop
  /-- A block fixes the blocks below it. -/
  linked :
    ∀ {chain other height}, chains chain → chains other →
      chain height = other height →
      ∀ below ≤ height, chain below = other below

def BlockTree.Spent
    (tree : BlockTree)
    (chain : Nat → BlockHash)
    (blockHash : BlockHash)
    (outpoint : OutPoint) : Prop :=
  (∃ height, chain height = blockHash) ∧ tree.spends blockHash outpoint

/-- A wallet that holds nothing but what the chain has. -/
structure Converged
    (tree : BlockTree)
    (chain : Nat → BlockHash)
    (stores : ScanStores) : Prop where
  coins :
    ∀ outpoint entry, stores.coins.get outpoint = some entry →
      ∀ height, entry.height = some height →
        tree.pays (chain height) outpoint
  spends :
    ∀ outpoint entry, stores.coins.get outpoint = some entry →
      ∀ blockHash, entry.status.blockHash = some blockHash →
        tree.Spent chain blockHash outpoint
  hashes :
    ∀ height hash, stores.state.scanned[height]? = some hash →
      hash = chain height

namespace ScanInput

variable (tree : BlockTree) (input : ScanInput) (stores : ScanStores)

/-- The height at which the fork search of a scan stops. -/
def searchedTo : Option Nat :=
  match findFork input.script.chainHash stores.state.scanned with
  | .error _ => none
  | .ok none => stores.state.lastScannedHeight
  | .ok (some forkHeight) => some forkHeight

/-- A block's outputs are unspent, and stored at its height. -/
def Found : Prop :=
  ∀ arrival ∈ input.script.arrivals, ∀ block, arrival.outcome = .ok block →
    ∀ (outpoint : OutPoint) (output : OwnedOutput),
      block.outs[outpoint]? = some output →
      output.blockheight = some block.height ∧
        output.spendStatus = .unspent

/--
The scan builds on what the wallet holds of one chain.  It leaves no gap above
the frontier, its fork search stops where the wallet holds one chain, and where
it finds no fork the coins already stored above the frontier are the chain's.
-/
structure BuildsOn
    (upTo : Nat)
    (chain : Nat → BlockHash)
    (reach : Nat) : Prop where
  ranged :
    stores.state.lastScannedHeight = none → input.start ≤ input.stop
  next :
    ∀ last, stores.state.lastScannedHeight = some last →
      input.start ≤ last + 1
  vouched :
    ∀ height, input.searchedTo stores = some height → height ≤ upTo
  early :
    findFork input.script.chainHash stores.state.scanned = .ok none →
      ∀ outpoint entry, stores.coins.get outpoint = some entry →
        ∀ height, entry.height = some height →
          stores.state.unscanned ≤ height → height ≤ reach →
          tree.pays (chain height) outpoint

/-- A spend the sweep marks is of the final chain, or of the block that the scan
commits at that height; up to `reach` that block is the chain's. -/
def MarksFollow
    (final chain : Nat → BlockHash)
    (reach : Nat)
    (committed : List BlockOutcome) : Prop :=
  ∀ request cursor watch blockHash spent,
    input.script.sweep.next request cursor watch = .ok (blockHash, spent) →
    ∀ outpoint ∈ spent,
      tree.Spent final blockHash outpoint ∨
        (∀ block ∈ committed, block.height = cursor →
            block.hash = blockHash) ∧
          (cursor ≤ reach →
            chain cursor = blockHash ∧ tree.spends blockHash outpoint)

/-- What the scan learns up to `reach` is of one chain: the answer on which its
fork search stops, the blocks it commits and the spends it marks. -/
structure Follows
    (final chain : Nat → BlockHash)
    (reach : Nat) : Prop where
  searched :
    ∀ height, input.searchedTo stores = some height →
      height ≤ reach ∧
        ∀ depth answer,
          input.script.chainHash depth height = .ok answer →
            answer = chain height
  blocks :
    ∀ block ∈ input.committed stores, block.height ≤ reach →
      block.hash = chain block.height ∧
        ∀ outpoint ∈ block.outs, tree.pays block.hash outpoint
  marks :
    input.MarksFollow tree final chain reach (input.committed stores)

/-- Every answer a scan gets is the chain's. -/
structure Sees (chain : Nat → BlockHash) : Prop where
  hashes :
    ∀ depth height answer,
      input.script.chainHash depth height = .ok answer →
        answer = chain height
  blocks :
    ∀ arrival ∈ input.script.arrivals, ∀ block, arrival.outcome = .ok block →
      block.hash = chain block.height ∧
        ∀ outpoint ∈ block.outs, tree.pays block.hash outpoint
  spends :
    ∀ request cursor watch blockHash spent,
      input.script.sweep.next request cursor watch = .ok (blockHash, spent) →
      ∀ outpoint ∈ spent, tree.Spent chain blockHash outpoint

end ScanInput

/--
A wallet that scanned a moving chain; up to the given height it holds the given
chain.
-/
inductive FollowingRun (tree : BlockTree) (final : Nat → BlockHash) :
    (Nat → BlockHash) → Nat → ScanStores → Prop where
  | fresh {chain} reach stores :
      tree.chains chain →
      stores.state.lastScannedHeight = none →
      stores.state.scanned = ∅ →
      (∀ outpoint, stores.coins.get outpoint = none) →
      FollowingRun tree final chain reach stores
  | failed {chain upTo stores} (input : ScanInput) reason :
      FollowingRun tree final chain upTo stores →
      findFork input.script.chainHash stores.state.scanned = .error reason →
      FollowingRun tree final chain upTo (input.after stores)
  | scan {chain upTo stores} (input : ScanInput) {next} reach :
      FollowingRun tree final chain upTo stores →
      tree.chains next →
      input.Found →
      (∀ reason,
        findFork input.script.chainHash stores.state.scanned ≠
          .error reason) →
      input.BuildsOn tree stores upTo next reach →
      input.Follows tree stores final next reach →
      FollowingRun tree final next reach (input.after stores)

/-- The kept hashes reach without a gap up to the frontier. -/
structure ReceiveSide.Contiguous (side : ReceiveSide) : Prop where
  unstarted : side.last = none → side.kept = ∅
  newest : ∀ last, side.last = some last → last ∈ side.kept
  below :
    ∀ last, side.last = some last → ∀ height ∈ side.kept, height ≤ last
  filled :
    ∀ last, side.last = some last → ∀ low ∈ side.kept, ∀ height, low ≤ height →
      height ≤ last → height ∈ side.kept

variable {scanned : BTreeMap Nat BlockHash} {height : Nat} {hash : BlockHash}
variable {forkHeight : Nat}

theorem ReceiveSide.Contiguous.reached
    {side : ReceiveSide}
    (contiguous : side.Contiguous)
    (kept : height ∈ side.kept) :
    ∃ last, side.last = some last ∧ height ≤ last := by
  cases known : side.last with
  | none =>
      rw [contiguous.unstarted known] at kept
      simp at kept
  | some last =>
      exact ⟨last, rfl, contiguous.below last known height kept⟩

theorem ReceiveSide.Contiguous.advanceTo
    {state : ScanState}
    (contiguous : state.receiveSide.Contiguous)
    {start tip : Nat}
    {hashes : BTreeMap Nat BlockHash}
    (next :
      ∀ last, state.lastScannedHeight = some last → start ≤ last + 1)
    (low : start ≤ tip)
    (filled : ∀ height, start ≤ height → height ≤ tip → height ∈ hashes) :
    (state.advanceTo hashes start tip).receiveSide.Contiguous := by
  by_cases above : state.unscanned ≤ tip
  · have reached := ScanState.lastScannedHeight_advanceTo low filled above
    have member := ScanState.mem_scanned_advanceTo low filled above
    have nonempty : tip < tip + reorgDepth := by
      unfold reorgDepth
      omega
    constructor
    · intro impossible
      cases reached.symm.trans impossible
    · intro last known
      cases reached.symm.trans known
      exact (member tip).mpr (Or.inl ⟨above, low, nonempty, Nat.le_refl _⟩)
    · intro last known height kept
      cases reached.symm.trans known
      rcases (member height).mp kept with new | ⟨_, _, before⟩
      · exact new.2.2.2
      · obtain ⟨frontier, known, bound⟩ := contiguous.reached before
        have fresh := ScanState.unscanned_some known
        omega
    · intro last known bottom kept height from_ upto
      cases reached.symm.trans known
      refine (member height).mpr ?_
      rcases (member bottom).mp kept with new | ⟨_, window, before⟩
      · exact Or.inl ⟨by omega, by omega, by omega, upto⟩
      · obtain ⟨frontier, known, _⟩ := contiguous.reached before
        have gapless := next frontier known
        have fresh := ScanState.unscanned_some known
        by_cases new : state.unscanned ≤ height
        · exact Or.inl ⟨new, by omega, by omega, upto⟩
        · exact Or.inr ⟨Or.inl (by omega), by omega,
            contiguous.filled frontier known bottom before height from_
              (by omega)⟩
  · rw [ScanState.receiveSide_advanceTo low filled above]
    exact contiguous

theorem getElem?_scanned_rollBack
    (forkHeight : Nat)
    (reorged : List BlockHash)
    (stores : ScanStores)
    (height : Nat) :
    (stores.rollBack forkHeight reorged).state.scanned[height]? =
      if forkHeight < height then none else stores.state.scanned[height]? := by
  have shape :
      (stores.rollBack forkHeight reorged).state.scanned =
        (stores.state.rollBack forkHeight).scanned :=
    congrArg ReceiveSide.kept (receiveSide_rollBack ..)
  rw [shape, ScanState.rollBack, ScanState.getElem?_scanned_dropBlockHashes]
  simp only [gt_iff_lt, decide_eq_true_eq]
  rfl

theorem ReceiveSide.Contiguous.rollBack
    {stores : ScanStores}
    (contiguous : stores.state.receiveSide.Contiguous)
    (kept : forkHeight ∈ stores.state.scanned)
    (reorged : List BlockHash) :
    (stores.rollBack forkHeight reorged).state.receiveSide.Contiguous := by
  have member :
      ∀ height,
        height ∈ (stores.rollBack forkHeight reorged).state.scanned ↔
          height ≤ forkHeight ∧ height ∈ stores.state.scanned := by
    intro height
    rw [BTreeMap.mem_iff_getElem?, getElem?_scanned_rollBack,
      BTreeMap.mem_iff_getElem?]
    by_cases above : forkHeight < height
    · rw [if_pos above]
      constructor
      · rintro ⟨_, impossible⟩
        cases impossible
      · rintro ⟨low, _⟩
        omega
    · rw [if_neg above]
      exact ⟨fun found => ⟨by omega, found⟩, And.right⟩
  have reached :
      (stores.rollBack forkHeight reorged).state.receiveSide.last =
        some forkHeight :=
    congrArg ReceiveSide.last (receiveSide_rollBack ..)
  constructor
  · intro impossible
    cases reached.symm.trans impossible
  · intro last known
    cases reached.symm.trans known
    exact (member forkHeight).mpr ⟨Nat.le_refl _, kept⟩
  · intro last known height stays
    cases reached.symm.trans known
    exact ((member height).mp stays).1
  · intro last known bottom stays height from_ upto
    cases reached.symm.trans known
    refine (member height).mpr ⟨upto, ?_⟩
    obtain ⟨last, before, bound⟩ := contiguous.reached kept
    exact contiguous.filled last before bottom ((member bottom).mp stays).2
      height from_ (by omega)

theorem newest_of_head?
    (head : scanned.toList.reverse.head? = some (height, hash))
    {other : Nat}
    (kept : other ∈ scanned) :
    other ≤ height := by
  have sorted :
      (scanned.toList.reverse.map Prod.fst).Pairwise
        (fun above below => below < above) := by
    rw [List.map_reverse, Std.ExtTreeMap.map_fst_toList_eq_keys,
      List.pairwise_reverse]
    exact BTreeMap.keys_sorted scanned
  have member := mem_newestFirst.mpr kept
  cases shape : scanned.toList.reverse with
  | nil =>
      rw [shape] at head
      cases head
  | cons newest below =>
      rw [shape] at head sorted member
      cases head
      rw [List.map_cons] at sorted member
      rcases List.mem_cons.mp member with same | later
      · exact Nat.le_of_eq same
      · exact Nat.le_of_lt ((List.pairwise_cons.mp sorted).1 other later)

theorem ScanInput.searchedTo_hash
    {input : ScanInput}
    {stores : ScanStores}
    (contiguous : stores.state.receiveSide.Contiguous)
    (stopped : input.searchedTo stores = some height) :
    ∃ hash request,
      stores.state.scanned[height]? = some hash ∧
        input.script.chainHash request height = .ok hash := by
  unfold searchedTo at stopped
  cases found : findFork input.script.chainHash stores.state.scanned with
  | error reason =>
      rw [found] at stopped
      cases stopped
  | ok fork =>
      have kept : ∃ other, other ∈ stores.state.scanned := by
        cases fork with
        | none =>
            rw [found] at stopped
            exact ⟨height, contiguous.newest height stopped⟩
        | some forkHeight =>
            exact ⟨forkHeight, findFork_mem found⟩
      have search := found
      unfold findFork at search
      rw [if_neg] at search
      · obtain ⟨other, hash, listed, ⟨request, answer⟩, which⟩ :=
          searchFork_hash 0 _ search
        have stored :=
          Std.ExtTreeMap.mem_toList_iff_getElem?_eq_some.mp
            (List.mem_reverse.mp listed)
        have here : other = height := by
          rcases which with rfl | ⟨_, rfl, head⟩
          · rw [found] at stopped
            exact Option.some.inj stopped
          · rw [found] at stopped
            have low :=
              newest_of_head? head (contiguous.newest height stopped)
            have high :=
              contiguous.below height stopped other
                (BTreeMap.mem_iff_getElem?.mpr ⟨hash, stored⟩)
            omega
        rw [here] at stored answer
        exact ⟨hash, request, stored, answer⟩
      · obtain ⟨other, member⟩ := kept
        intro empty
        rw [Std.ExtTreeMap.isEmpty_iff.mp empty] at member
        simp at member

theorem mem_reorgedHashes
    (kept : scanned[height]? = some hash)
    (above : forkHeight < height) :
    hash ∈ reorgedHashes scanned forkHeight := by
  refine List.mem_map.mpr ⟨(height, hash), List.mem_filter.mpr ⟨?_, ?_⟩, rfl⟩
  · exact Std.ExtTreeMap.mem_toList_iff_getElem?_eq_some.mpr kept
  · simpa using above

theorem OutputSpendStatus.blockHash_undone
    {reorged : List BlockHash}
    {status : OutputSpendStatus}
    {blockHash : BlockHash}
    (marked : (status.undone reorged).blockHash = some blockHash) :
    blockHash ∉ reorged ∧ status.blockHash = some blockHash := by
  cases status with
  | unspent =>
      cases marked
  | spent txid confirmed =>
      cases confirmed with
      | none =>
          cases marked
      | some hash =>
          rw [undone] at marked
          split at marked
          · cases marked
          · next stays =>
              cases marked
              exact ⟨stays, rfl⟩
  | mined hash =>
      rw [undone] at marked
      split at marked
      · cases marked
      · next stays =>
          cases marked
          exact ⟨stays, rfl⟩

/-- A spend marked by the block kept at its height; up to `upTo` that block is
the chain's. -/
def Traced
    (tree : BlockTree)
    (chain : Nat → BlockHash)
    (upTo : Nat)
    (state : ScanState)
    (blockHash : BlockHash)
    (outpoint : OutPoint) : Prop :=
  ∃ height last, state.lastScannedHeight = some last ∧ height ≤ last ∧
    (∀ hash, state.scanned[height]? = some hash → hash = blockHash) ∧
    (height ≤ upTo → chain height = blockHash ∧ tree.spends blockHash outpoint)

/-- Up to `upTo` the wallet holds one chain; a spend marked by a block that is
not the final chain's can be undone. -/
structure Vouched
    (tree : BlockTree)
    (final chain : Nat → BlockHash)
    (upTo : Nat)
    (stores : ScanStores) : Prop where
  contiguous : stores.state.receiveSide.Contiguous
  hashes :
    ∀ height hash, stores.state.scanned[height]? = some hash →
      height ≤ upTo → hash = chain height
  coins :
    ∀ outpoint entry, stores.coins.get outpoint = some entry →
      ∀ height, entry.height = some height → height ≤ upTo →
        tree.pays (chain height) outpoint
  spends :
    ∀ outpoint entry, stores.coins.get outpoint = some entry →
      ∀ blockHash, entry.status.blockHash = some blockHash →
        tree.Spent final blockHash outpoint ∨
          Traced tree chain upTo stores.state blockHash outpoint

section Pivot

variable
    {tree : BlockTree}
    {final chain next : Nat → BlockHash}
    {upTo reach : Nat}
    {stores : ScanStores}
    {input : ScanInput}
    (vouched : Vouched tree final chain upTo stores)
    (chains : tree.chains chain)
    (nextChains : tree.chains next)
    (builds : input.BuildsOn tree stores upTo next reach)
    (follows : input.Follows tree stores final next reach)

include vouched chains nextChains builds follows

theorem Vouched.shared
    (stopped : input.searchedTo stores = some height) :
    ∀ below ≤ height, chain below = next below := by
  obtain ⟨hash, request, stored, answer⟩ :=
    ScanInput.searchedTo_hash vouched.contiguous stopped
  have old :=
    vouched.hashes height hash stored (builds.vouched height stopped)
  have new := (follows.searched height stopped).2 request hash answer
  exact tree.linked chains nextChains (old.symm.trans new)

theorem Vouched.unforked
    (found : findFork input.script.chainHash stores.state.scanned = .ok none) :
    Vouched tree final next reach stores ∧
      ∀ height ∈ stores.state.scanned, height ≤ reach := by
  have stops : input.searchedTo stores = stores.state.lastScannedHeight := by
    rw [ScanInput.searchedTo, found]
  -- What is recorded at or below the frontier is shared.
  have shared :
      ∀ last, stores.state.lastScannedHeight = some last →
        last ≤ upTo ∧ last ≤ reach ∧
          ∀ below ≤ last, chain below = next below := by
    intro last known
    have stopped := stops.trans known
    exact ⟨builds.vouched last stopped, (follows.searched last stopped).1,
      vouched.shared chains nextChains builds follows stopped⟩
  constructor
  · constructor
    · exact vouched.contiguous
    · intro height hash stored _
      obtain ⟨last, known, bound⟩ :=
        vouched.contiguous.reached
          (BTreeMap.mem_iff_getElem?.mpr ⟨hash, stored⟩)
      obtain ⟨high, _, same⟩ := shared last known
      rw [← same height bound]
      exact vouched.hashes height hash stored (by omega)
    · intro outpoint entry stored height confirmed within
      by_cases above : stores.state.unscanned ≤ height
      · exact builds.early found outpoint entry stored height confirmed above
          within
      · cases known : stores.state.lastScannedHeight with
        | none =>
            rw [ScanState.unscanned_none known] at above
            omega
        | some last =>
            obtain ⟨high, _, same⟩ := shared last known
            rw [ScanState.unscanned_some known] at above
            rw [← same height (by omega)]
            exact vouched.coins outpoint entry stored height confirmed
              (by omega)
    · intro outpoint entry stored blockHash marked
      rcases vouched.spends outpoint entry stored blockHash marked with
        settled | ⟨height, last, known, bound, kept, own⟩
      · exact Or.inl settled
      · obtain ⟨high, _, same⟩ := shared last known
        refine Or.inr ⟨height, last, known, bound, kept, fun _ => ?_⟩
        rw [← same height bound]
        exact own (by omega)
  · intro height kept
    obtain ⟨last, known, bound⟩ := vouched.contiguous.reached kept
    have high := (shared last known).2.1
    omega

theorem Vouched.forked
    (found :
      findFork input.script.chainHash stores.state.scanned =
        .ok (some forkHeight)) :
    Vouched tree final next reach
        (stores.rollBack forkHeight
          (reorgedHashes stores.state.scanned forkHeight)) ∧
      forkHeight ≤ reach := by
  have stopped : input.searchedTo stores = some forkHeight := by
    rw [ScanInput.searchedTo, found]
  have high := builds.vouched forkHeight stopped
  have low := (follows.searched forkHeight stopped).1
  have same := vouched.shared chains nextChains builds follows stopped
  have member := findFork_mem found
  refine ⟨?_, low⟩
  constructor
  · exact vouched.contiguous.rollBack member _
  · intro height hash stored _
    rw [getElem?_scanned_rollBack] at stored
    split at stored
    · cases stored
    · rw [← same height (by omega)]
      exact vouched.hashes height hash stored (by omega)
  · intro outpoint entry stored height confirmed _
    rw [ScanStores.get_coins_rollBack] at stored
    obtain ⟨before, known, left_⟩ := Option.bind_eq_some_iff.mp stored
    unfold SpCoinStore.rolledBack at left_
    split at left_
    · cases left_
    · next kept =>
        cases left_
        rw [SpCoinEntry.height_withStatus] at confirmed
        have bound : height ≤ forkHeight := by
          rw [confirmed] at kept
          simpa using kept
        rw [← same height bound]
        exact vouched.coins outpoint before known height confirmed (by omega)
  · intro outpoint entry stored blockHash marked
    rw [ScanStores.get_coins_rollBack] at stored
    obtain ⟨before, known, left_⟩ := Option.bind_eq_some_iff.mp stored
    unfold SpCoinStore.rolledBack at left_
    split at left_
    · cases left_
    · cases left_
      rw [SpCoinEntry.status_withStatus] at marked
      obtain ⟨stays, old⟩ := OutputSpendStatus.blockHash_undone marked
      rcases vouched.spends outpoint before known blockHash old with
        settled | ⟨height, last, reached, bound, kept, own⟩
      · exact Or.inl settled
      · -- The hash kept at a height above the fork is undone.
        by_cases above : forkHeight < height
        · have present :=
            vouched.contiguous.filled last reached forkHeight member height
              (by omega) bound
          obtain ⟨hash, there⟩ := BTreeMap.mem_iff_getElem?.mp present
          refine absurd ?_ stays
          rw [← kept hash there]
          exact mem_reorgedHashes there above
        · refine Or.inr
            ⟨height, forkHeight, ScanStores.lastScannedHeight_rollBack ..,
              by omega, ?_, fun _ => ?_⟩
          · intro hash there
            rw [getElem?_scanned_rollBack, if_neg above] at there
            exact kept hash there
          · rw [← same height (by omega)]
            exact own (by omega)

end Pivot

end Bwk
