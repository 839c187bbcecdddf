import Bwk.ReconcilerSafety

namespace Bwk

/-!
# The queue of claims

Claims are queued by height while the law about them is one of transactions:
no height without a claim, no transaction claimed at two heights.  Five
operations write the queue, and each is looked at once; a run of folds and
passes in any order then keeps the law.
-/

namespace CoinStore

variable {Backend : Type}

/-- Every height has a claim and every transaction at most one height. -/
structure Orderly (coins : CoinStore Backend) : Prop where
  inhabited :
    ∀ (height : Nat) txids, coins.pendingClaims[height]? = some txids →
      txids.isEmpty = false
  oneHeight :
    ∀ txid first second, coins.Claimed ⟨txid, first⟩ →
      coins.Claimed ⟨txid, second⟩ → first = second

/-- Nothing stored forbids the transaction a claim. -/
def Open (coins : CoinStore Backend) (txid : Txid) : Prop :=
  coins.txStore.inclusionOf txid = none ∨
    coins.txStore.inclusionOf txid = some .unconfirmed

def lastReported (reported : List ClaimAt) (txid : Txid) : Option Nat :=
  reported.foldl
    (fun last claim => if claim.txid = txid then some claim.height else last)
    none

section Operations

variable {coins : CoinStore Backend}

variable {after : CoinStore Backend} {reported : List ClaimAt} {txid : Txid}
variable {query : ClaimAt}

theorem Orderly.fewer
    (orderly : coins.Orderly)
    (inhabited :
      ∀ (height : Nat) txids, after.pendingClaims[height]? = some txids →
        txids.isEmpty = false)
    (fewer : ∀ claim, after.Claimed claim → coins.Claimed claim) :
    after.Orderly where
  inhabited := inhabited
  oneHeight := fun txid first second atFirst atSecond =>
    orderly.oneHeight txid first second (fewer _ atFirst) (fewer _ atSecond)

theorem Orderly.congr
    (orderly : coins.Orderly)
    (same : after.pendingClaims = coins.pendingClaims) :
    after.Orderly := by
  refine orderly.fewer ?_ ?_
  · rw [same]
    exact orderly.inhabited
  · intro claim claimed
    rw [Claimed, same] at claimed
    exact claimed

theorem inhabited_retainClaims
    (left : Nat → BTreeSet Txid → BTreeSet Txid)
    (height : Nat)
    (txids : BTreeSet Txid)
    (found : (coins.retainClaims left).pendingClaims[height]? = some txids) :
    txids.isEmpty = false := by
  simp only [retainClaims, Std.ExtTreeMap.getElem?_filterMap'] at found
  obtain ⟨before, -, remains⟩ := Option.bind_eq_some_iff.mp found
  split at remains
  · cases remains
  · rename_i inhabited
    cases remains
    simpa using inhabited

theorem Orderly.dropAllPendingClaims
    (orderly : coins.Orderly)
    (txid : Txid) : (coins.dropAllPendingClaims txid).Orderly :=
  orderly.fewer (inhabited_retainClaims _)
    (fun _ claimed => (claimed_dropAllPendingClaims.mp claimed).1)

theorem Orderly.prunePendingClaim
    (orderly : coins.Orderly)
    (keep : ClaimAt) : (coins.prunePendingClaim keep).Orderly :=
  orderly.fewer (inhabited_retainClaims _)
    (fun _ claimed => (claimed_prunePendingClaim.mp claimed).1)

theorem Orderly.removePendingClaim
    (orderly : coins.Orderly)
    (claim : ClaimAt) : (coins.removePendingClaim claim).Orderly := by
  refine orderly.fewer ?_
    (fun _ claimed => (claimed_removePendingClaim.mp claimed).1)
  intro height txids found
  unfold CoinStore.removePendingClaim at found
  split at found
  · exact orderly.inhabited height txids found
  · dsimp only at found
    split at found
    · rw [BTreeMap.getElem?_erase_eq] at found
      split at found
      · cases found
      · exact orderly.inhabited height txids found
    · rename_i kept
      rw [BTreeMap.getElem?_insert_eq] at found
      split at found
      · cases found
        simpa using kept
      · exact orderly.inhabited height txids found

theorem claimed_recordReportedHeight
    (claim query : ClaimAt) :
    (coins.recordReportedHeight claim).Claimed query ↔
      (query = claim ∧ coins.Open claim.txid) ∨
        (coins.Claimed query ∧
          (query.txid = claim.txid → query.height = claim.height)) := by
  unfold recordReportedHeight Open
  cases stored : coins.txStore.inclusionOf claim.txid with
  | none =>
      simp [claimed_insertPendingClaim, claimed_prunePendingClaim]
  | some inclusion =>
      cases inclusion <;>
        simp [claimed_insertPendingClaim, claimed_prunePendingClaim]

theorem Orderly.recordReportedHeight
    (orderly : coins.Orderly)
    (claim : ClaimAt) : (coins.recordReportedHeight claim).Orderly where
  inhabited := by
    have pruned := orderly.prunePendingClaim claim
    intro height txids found
    have claimed
        (found : (insertPendingClaim (coins.prunePendingClaim claim)
          claim).pendingClaims[height]? = some txids) :
        txids.isEmpty = false := by
      simp only [insertPendingClaim, BTreeMap.getElem?_insert_eq] at found
      split at found
      · cases found
        exact BTreeSet.isEmpty_eq_false_of_mem
          (BTreeSet.mem_insert_eq.mpr (.inl rfl))
      · exact pruned.inhabited height txids found
    unfold CoinStore.recordReportedHeight at found
    dsimp only at found
    split at found
    · exact claimed found
    · exact claimed found
    · exact pruned.inhabited height txids found
  oneHeight := by
    intro txid first second atFirst atSecond
    rw [claimed_recordReportedHeight] at atFirst atSecond
    -- A claim of the reported transaction is at the reported height now.
    have here :
        ∀ height,
          (((⟨txid, height⟩ : ClaimAt) = claim ∧ coins.Open claim.txid) ∨
            (coins.Claimed ⟨txid, height⟩ ∧
              (txid = claim.txid → height = claim.height))) →
          txid = claim.txid → height = claim.height := by
      rintro height (⟨rfl, -⟩ | ⟨-, moved⟩) same
      · rfl
      · exact moved same
    by_cases same : txid = claim.txid
    · rw [here first atFirst same, here second atSecond same]
    · have before :
          ∀ height,
            (((⟨txid, height⟩ : ClaimAt) = claim ∧
                coins.Open claim.txid) ∨
              (coins.Claimed ⟨txid, height⟩ ∧
                (txid = claim.txid → height = claim.height))) →
            coins.Claimed ⟨txid, height⟩ := by
        rintro height (⟨rfl, -⟩ | ⟨claimed, -⟩)
        · exact (same rfl).elim
        · exact claimed
      exact orderly.oneHeight txid first second (before first atFirst)
        (before second atSecond)

theorem Orderly.recordReportedHeights
    (orderly : coins.Orderly)
    (reported : List ClaimAt) :
    (coins.recordReportedHeights reported).Orderly := by
  induction reported generalizing coins with
  | nil =>
      exact orderly
  | cons claim rest inductionHypothesis =>
      exact inductionHypothesis (orderly.recordReportedHeight claim)

theorem recordReportedHeights_concat
    (reported : List ClaimAt)
    (claim : ClaimAt) :
    coins.recordReportedHeights (reported ++ [claim]) =
      (coins.recordReportedHeights reported).recordReportedHeight claim := by
  simp [CoinStore.recordReportedHeights]

theorem lastReported_concat
    (reported : List ClaimAt)
    (claim : ClaimAt)
    (txid : Txid) :
    lastReported (reported ++ [claim]) txid =
      if claim.txid = txid then some claim.height
      else lastReported reported txid := by
  simp [lastReported]

theorem lastReported_eq_none
    (others : ∀ claim ∈ reported, claim.txid ≠ txid) :
    lastReported reported txid = none := by
  induction reported using List.reverseRecOn with
  | nil =>
      rfl
  | append_singleton rest claim inductionHypothesis =>
      rw [lastReported_concat, if_neg (others claim (by simp))]
      exact inductionHypothesis
        (fun earlier listed => others earlier (List.mem_append_left _ listed))

theorem lastReported_eq_some
    {height : Nat}
    (listed : ∃ claim ∈ reported, claim.txid = txid)
    (agree : ∀ claim ∈ reported, claim.txid = txid → claim.height = height) :
    lastReported reported txid = some height := by
  induction reported using List.reverseRecOn with
  | nil =>
      simp at listed
  | append_singleton rest claim inductionHypothesis =>
      rw [lastReported_concat]
      split
      · rename_i here
        rw [agree claim (by simp) here]
      · rename_i other
        refine inductionHypothesis ?_ (fun earlier inRest =>
          agree earlier (List.mem_append_left _ inRest))
        obtain ⟨named, member, here⟩ := listed
        rcases List.mem_append.mp member with inRest | last
        · exact ⟨named, inRest, here⟩
        · rw [List.mem_singleton.mp last] at here
          exact (other here).elim

theorem mem_or_claimed_of_claimed
    (claimed : (coins.recordReportedHeights reported).Claimed query) :
    query ∈ reported ∨ coins.Claimed query := by
  induction reported using List.reverseRecOn with
  | nil =>
      exact .inr claimed
  | append_singleton rest claim inductionHypothesis =>
      rw [recordReportedHeights_concat,
        claimed_recordReportedHeight] at claimed
      rcases claimed with ⟨rfl, -⟩ | ⟨earlier, -⟩
      · exact .inl (by simp)
      · exact (inductionHypothesis earlier).imp_left
          (List.mem_append_left _)

theorem claimed_of_unreported
    (unreported : lastReported reported query.txid = none) :
    (coins.recordReportedHeights reported).Claimed query ↔
      coins.Claimed query := by
  induction reported using List.reverseRecOn with
  | nil =>
      rfl
  | append_singleton rest claim inductionHypothesis =>
      rw [lastReported_concat] at unreported
      split at unreported
      · cases unreported
      · rename_i other
        rw [recordReportedHeights_concat, claimed_recordReportedHeight,
          inductionHypothesis unreported]
        constructor
        · rintro (⟨rfl, -⟩ | ⟨claimed, -⟩)
          · exact (other rfl).elim
          · exact claimed
        · exact fun claimed =>
            .inr ⟨claimed, fun same => (other same.symm).elim⟩

theorem claimed_of_reported
    {last : Nat}
    (isOpen : coins.Open txid)
    (isLast : lastReported reported txid = some last)
    (height : Nat) :
    (coins.recordReportedHeights reported).Claimed ⟨txid, height⟩ ↔
      height = last := by
  induction reported using List.reverseRecOn with
  | nil =>
      cases isLast
  | append_singleton rest claim inductionHypothesis =>
      rw [lastReported_concat] at isLast
      rw [recordReportedHeights_concat, claimed_recordReportedHeight, Open,
        txStore_recordReportedHeights]
      split at isLast
      · rename_i here
        subst here
        cases isLast
        constructor
        · rintro (⟨same, -⟩ | ⟨-, moved⟩)
          · exact congrArg ClaimAt.height same
          · exact moved rfl
        · rintro rfl
          exact .inl ⟨rfl, isOpen⟩
      · rename_i other
        rw [inductionHypothesis isLast]
        constructor
        · rintro (⟨rfl, -⟩ | ⟨atLast, -⟩)
          · exact (other rfl).elim
          · exact atLast
        · exact fun atLast =>
            .inr ⟨atLast, fun same => (other same.symm).elim⟩

end Operations

section Steps

variable {HeaderRows Raw : Type}
variable {btc : Bitcoin Raw} {crate : TxCrate}
variable {coins : CoinStore Backend}

theorem Orderly.updateSpkHistory
    (orderly : coins.Orderly)
    (spk : ScriptBuf)
    (history : History) :
    (coins.updateSpkHistory spk history).2.Orderly := by
  have demoted :
      CoinStore.Orderly
        { coins with
          spkHistory :=
            coins.spkHistory.insert spk
              ((coins.spkHistory[spk]?.getD SpkHistory.new).insert
                history).2
          txStore :=
            (coins.spkDiff spk history).changed.keys.foldl
              (fun txs txid => txs.updateInclusion txid .unconfirmed)
              ((coins.spkDiff spk history).removed.keys.foldl
                TxStore.remove coins.txStore) } :=
    orderly.congr rfl
  have dropped :=
    List.foldlRecOn (coins.spkDiff spk history).changed.keys
      CoinStore.dropAllPendingClaims demoted
      (fun _ held txid _ => held.dropAllPendingClaims txid)
  exact dropped.congr rfl

theorem Orderly.updateHistories
    (orderly : coins.Orderly)
    (hist : List (ScriptBuf × History)) :
    (coins.updateHistories hist).2.Orderly := by
  induction hist generalizing coins with
  | nil =>
      exact orderly
  | cons row rest inductionHypothesis =>
      have watched :
          CoinStore.Orderly
            { coins with
              addressStore := coins.addressStore.recvCoinAt row.1 } :=
        orderly.congr rfl
      exact inductionHypothesis (watched.updateSpkHistory row.1 row.2)

theorem claimed_updateHistories
    {hist : List (ScriptBuf × History)}
    (distinct : (hist.map Prod.fst).Nodup)
    (query : ClaimAt) :
    (coins.updateHistories hist).2.Claimed query ↔
      coins.Claimed query ∧
        ∀ row ∈ hist, query.txid ∉ (coins.spkDiff row.1 row.2).changed := by
  induction hist generalizing coins with
  | nil =>
      simp [CoinStore.updateHistories]
  | cons row rest inductionHypothesis =>
      rw [List.map_cons, List.nodup_cons] at distinct
      simp only [CoinStore.updateHistories]
      rw [inductionHypothesis distinct.2, claimed_updateSpkHistory]
      -- The fold of one script leaves the histories of the others alone.
      have others :
          ∀ later ∈ rest,
            spkDiff
                ({ coins with
                    addressStore :=
                      coins.addressStore.recvCoinAt row.1
                  }.updateSpkHistory row.1 row.2).2 later.1 later.2 =
              coins.spkDiff later.1 later.2 := by
        intro later listed
        have other : row.1 ≠ later.1 := by
          intro same
          exact distinct.1 (same ▸ List.mem_map_of_mem listed)
        rw [spkDiff, spkHistory_updateSpkHistory,
          BTreeMap.getElem?_insert_eq, if_neg other]
        rfl
      have sameDiffs :
          (∀ later ∈ rest, query.txid ∉
              (spkDiff
                ({ coins with
                    addressStore :=
                      coins.addressStore.recvCoinAt row.1
                  }.updateSpkHistory row.1 row.2).2
                later.1 later.2).changed) ↔
            ∀ later ∈ rest,
              query.txid ∉ (coins.spkDiff later.1 later.2).changed :=
        forall₂_congr (fun later listed => by rw [others later listed])
      rw [sameDiffs, List.forall_mem_cons, ← and_assoc]
      rfl

variable [PersistenceBackend Backend Txid TxEntry]

theorem claimed_handleHistoryResponse
    (crate : TxCrate)
    (hist : BTreeMap ScriptBuf History)
    (query : ClaimAt) :
    (coins.handleHistoryResponse crate hist).2.Claimed query ↔
      coins.Claimed query ∧
        ∀ row ∈ hist.toList,
          query.txid ∉ (coins.spkDiff row.1 row.2).changed := by
  have distinct := BTreeMap.nodup_toList hist
  have folded :
      (coins.updateHistories hist.toList).2.Claimed query ↔
        coins.Claimed query ∧
          ∀ row ∈ hist.toList,
            query.txid ∉ (coins.spkDiff row.1 row.2).changed :=
    claimed_updateHistories distinct query
  rcases handleHistoryResponse_eq crate coins hist with plain | regenerated
  · rw [plain]
    exact folded
  · rw [regenerated]
    exact folded

theorem Orderly.handleHistoryResponse
    (orderly : coins.Orderly)
    (crate : TxCrate)
    (hist : BTreeMap ScriptBuf History) :
    (coins.handleHistoryResponse crate hist).2.Orderly := by
  have folded := orderly.updateHistories hist.toList
  rcases handleHistoryResponse_eq crate coins hist with plain | regenerated
  · rw [plain]
    exact folded.congr rfl
  · rw [regenerated]
    exact folded.congr rfl

theorem pendingClaims_handleTxsResponse
    (txs : List Transaction) :
    (coins.handleTxsResponse crate txs).pendingClaims =
      coins.pendingClaims :=
  rfl

end Steps

section Passes

variable {HeaderRows Raw : Type}
variable {btc : Bitcoin Raw} {headers : HeaderStore HeaderRows Raw}
variable {coins : CoinStore Backend}

variable (claims : List ClaimAt) {query : ClaimAt}

theorem claimed_removeClaims
    (query : ClaimAt) :
    (claims.foldl CoinStore.removePendingClaim coins).Claimed query ↔
      coins.Claimed query ∧ query ∉ claims := by
  induction claims generalizing coins with
  | nil =>
      simp
  | cons claim rest inductionHypothesis =>
      rw [List.foldl_cons, inductionHypothesis, claimed_removePendingClaim,
        List.mem_cons, not_or, and_assoc]

theorem resolveClaims_queue :
    (resolveClaims btc headers (ChainPass.start coins)
        claims).2.coins.pendingClaims = coins.pendingClaims := by
  refine resolveClaims_keeps
    (fun pass => pass.coins.pendingClaims = coins.pendingClaims) rfl ?_
  intro pass claim same
  rcases resolveClaim_cases btc headers pass claim with
    unmoved | ⟨blockHash, -, -, stamped⟩
  · rw [unmoved]
    exact same
  · rw [stamped]
    exact same

theorem Orderly.resolvePendingClaims
    (orderly : coins.Orderly)
    (btc : Bitcoin Raw)
    (headers : HeaderStore HeaderRows Raw) :
    (coins.resolvePendingClaims btc headers).coins.Orderly := by
  have looped :
      (resolveClaims btc headers (ChainPass.start coins)
        coins.pendingClaimsSnapshot).2.coins.Orderly :=
    orderly.congr (resolveClaims_queue _)
  exact List.foldlRecOn
    (resolveClaims btc headers (ChainPass.start coins)
      coins.pendingClaimsSnapshot).1
    CoinStore.removePendingClaim looped
    (fun _ held claim _ => held.removePendingClaim claim)

theorem confirmClaim_cases
    (btc : Bitcoin Raw)
    (reportedHeight : Nat)
    (header : Header)
    (pass : Bool × CoinStore Backend)
    (txid : Txid) :
    (pass.2.txStore.inclusionOf txid = none ∧
        pass.2.updateInFlight txid = true ∧
        confirmClaim btc reportedHeight header pass txid = pass) ∨
      (¬ (pass.2.txStore.inclusionOf txid = none ∧
          pass.2.updateInFlight txid = true) ∧
        ∃ promoted : TxStore Backend,
          (∀ other, other ≠ txid →
            promoted.inclusionOf other =
              pass.2.txStore.inclusionOf other) ∧
          (confirmClaim btc reportedHeight header pass txid).2 =
            { pass.2 with txStore := promoted }.removePendingClaim
              ⟨txid, reportedHeight⟩) := by
  unfold confirmClaim
  cases stored : pass.2.txStore.inclusionOf txid with
  | none =>
      by_cases flying : pass.2.updateInFlight txid = true
      · exact .inl ⟨rfl, flying, by simp [flying]⟩
      · refine .inr ⟨fun both => flying both.2, pass.2.txStore,
          fun _ _ => rfl, ?_⟩
        simp [flying]
  | some inclusion =>
      refine .inr ⟨?_, ?_⟩
      · rintro ⟨impossible, -⟩
        cases impossible
      · cases inclusion with
        | unconfirmed =>
            refine ⟨_, ?_, rfl⟩
            intro other apart
            simp [Ne.symm apart]
        | confirmedUnverified height blockHash | verified height blockHash =>
            exact ⟨pass.2.txStore, fun _ _ => rfl, rfl⟩
        | verifyFailed height blockHash =>
            exact ⟨pass.2.txStore, fun _ _ => rfl, rfl⟩

theorem Orderly.confirmPendingClaims
    (orderly : coins.Orderly)
    (btc : Bitcoin Raw)
    (reportedHeight : Nat)
    (header : Header) :
    (coins.confirmPendingClaims btc reportedHeight header).2.Orderly := by
  unfold CoinStore.confirmPendingClaims
  split
  · exact orderly
  · rename_i txids _
    refine List.foldlRecOn
      (motive := fun pass : Bool × CoinStore Backend => pass.2.Orderly)
      txids.toList (confirmClaim btc reportedHeight header) orderly ?_
    intro pass held txid _
    rcases confirmClaim_cases btc reportedHeight header pass txid with
      ⟨-, -, unmoved⟩ | ⟨-, promoted, -, removed⟩
    · rw [unmoved]
      exact held
    · have restored :
          CoinStore.Orderly { pass.2 with txStore := promoted } :=
        held.congr rfl
      rw [removed]
      exact restored.removePendingClaim _

/-- The transaction is on its way: asked for and not stored. -/
structure Awaited (coins : CoinStore Backend) (txid : Txid) : Prop where
  absent : coins.txStore.inclusionOf txid = none
  inFlight : coins.updateInFlight txid = true

theorem not_removed_of_awaited
    {txid : Txid}
    {claims : List ClaimAt}
    {pass : ChainPass Backend}
    (awaited : pass.coins.Awaited txid) :
    ∀ claim ∈ (resolveClaims btc headers pass claims).1,
      claim.txid ≠ txid := by
  induction claims generalizing pass with
  | nil =>
      intro claim listed
      cases listed
  | cons head rest inductionHypothesis =>
      have after :
          (resolveClaim btc headers pass head).coins.Awaited txid := by
        rcases resolveClaim_cases btc headers pass head with
          unmoved | ⟨blockHash, -, -, stamped⟩
        · rw [unmoved]
          exact awaited
        · rw [stamped]
          refine ⟨?_, awaited.inFlight⟩
          rw [inclusionOf_stamp, awaited.absent]
          simp
      have later := inductionHypothesis after
      intro claim listed
      simp only [resolveClaims] at listed
      split at listed
      · rename_i settled
        rcases List.mem_cons.mp listed with rfl | inRest
        · rintro rfl
          rw [claimSettled, awaited.absent] at settled
          simp [awaited.inFlight] at settled
        · exact later claim inRest
      · exact later claim listed

theorem claimed_resolvePendingClaims_of_awaited
    (awaited : coins.Awaited query.txid) :
    (coins.resolvePendingClaims btc headers).coins.Claimed query ↔
      coins.Claimed query := by
  have begun : (ChainPass.start coins).coins.Awaited query.txid :=
    awaited
  have kept :
      query ∉ (resolveClaims btc headers (ChainPass.start coins)
        coins.pendingClaimsSnapshot).1 :=
    fun listed => not_removed_of_awaited begun query listed rfl
  simp only [CoinStore.resolvePendingClaims]
  rw [claimed_removeClaims, Claimed, resolveClaims_queue]
  exact and_iff_left kept

theorem claimed_confirmPendingClaims_of_awaited
    (awaited : coins.Awaited query.txid)
    (btc : Bitcoin Raw)
    (reportedHeight : Nat)
    (header : Header) :
    (coins.confirmPendingClaims btc reportedHeight header).2.Claimed query ↔
      coins.Claimed query := by
  unfold CoinStore.confirmPendingClaims
  split
  · rfl
  · rename_i txids _
    refine (List.foldlRecOn
      (motive := fun pass : Bool × CoinStore Backend =>
        pass.2.Awaited query.txid ∧
          (pass.2.Claimed query ↔ coins.Claimed query))
      txids.toList (confirmClaim btc reportedHeight header)
      ⟨awaited, Iff.rfl⟩ ?_).2
    rintro pass ⟨stillAwaited, same⟩ txid -
    rcases confirmClaim_cases btc reportedHeight header pass txid with
      ⟨-, -, unmoved⟩ | ⟨settled, promoted, others, removed⟩
    · rw [unmoved]
      exact ⟨stillAwaited, same⟩
    · have other : query.txid ≠ txid := by
        rintro rfl
        exact settled ⟨stillAwaited.absent, stillAwaited.inFlight⟩
      rw [removed]
      refine ⟨⟨?_, ?_⟩, ?_⟩
      · rw [removePendingClaim_eq]
        exact (others _ other).trans stillAwaited.absent
      · rw [removePendingClaim_eq]
        exact stillAwaited.inFlight
      · rw [claimed_removePendingClaim, ← same]
        refine and_iff_left ?_
        rintro rfl
        exact other rfl

end Passes

/-- A fold or a pass that writes the queue. -/
inductive ClaimStep (HeaderRows Raw : Type) where
  /-- A history is folded and the heights it reports are recorded. -/
  | history (hist : BTreeMap ScriptBuf History)
  | txs (txs : List Transaction)
  | resolve (headers : HeaderStore HeaderRows Raw)
  | confirm (reportedHeight : Nat) (header : Header)

section Runs

variable {HeaderRows Raw : Type} [PersistenceBackend Backend Txid TxEntry]
variable (btc : Bitcoin Raw) (crate : TxCrate)

/-- Fold a response and record the heights it reports. -/
def recordHistory
    (coins : CoinStore Backend)
    (hist : BTreeMap ScriptBuf History) : CoinStore Backend :=
  let (outcome, folded) := coins.handleHistoryResponse crate hist
  folded.recordReportedHeights outcome.reported

def claimStep
    (coins : CoinStore Backend) :
    ClaimStep HeaderRows Raw → CoinStore Backend
  | .history hist => coins.recordHistory crate hist
  | .txs txs => coins.handleTxsResponse crate txs
  | .resolve headers => (coins.resolvePendingClaims btc headers).coins
  | .confirm reportedHeight header =>
      (coins.confirmPendingClaims btc reportedHeight header).2

/-- Take the steps one after the other. -/
def claimRun
    (coins : CoinStore Backend)
    (steps : List (ClaimStep HeaderRows Raw)) : CoinStore Backend :=
  steps.foldl (claimStep btc crate) coins

/-- The height a step reports a transaction at last. -/
def newest
    (coins : CoinStore Backend)
    (txid : Txid) : ClaimStep HeaderRows Raw → Option Nat
  | .history hist =>
      lastReported (coins.handleHistoryResponse crate hist).1.reported txid
  | _ => none

/-- The step is a history that moves the transaction. -/
def Demotes
    (coins : CoinStore Backend)
    (txid : Txid) : ClaimStep HeaderRows Raw → Prop
  | .history hist =>
      ∃ row ∈ hist.toList, txid ∈ (coins.spkDiff row.1 row.2).changed
  | _ => False

variable (HeaderRows) in
/-- What holds of the queue at any time. -/
structure ClaimLaw (coins : CoinStore Backend) : Prop where
  orderly : coins.Orderly
  /-- A fresh report is what an open transaction claims. -/
  recorded :
    ∀ hist txid last,
      lastReported (coins.handleHistoryResponse crate hist).1.reported
          txid = some last →
        (coins.recordHistory crate hist).Open txid →
          ∀ height,
            (coins.recordHistory crate hist).Claimed ⟨txid, height⟩ ↔
              height = last
  /-- A step moves the claim of an awaited transaction at most. -/
  held :
    ∀ (step : ClaimStep HeaderRows Raw) txid height,
      coins.Awaited txid →
        coins.Claimed ⟨txid, height⟩ →
          ¬ coins.Demotes txid step →
            (coins.claimStep btc crate step).Open txid →
              (coins.claimStep btc crate step).Claimed
                ⟨txid, (coins.newest crate txid step).getD height⟩

variable {btc crate}
variable {coins : CoinStore Backend}

theorem Orderly.claimStep
    (orderly : coins.Orderly)
    (step : ClaimStep HeaderRows Raw) :
    (coins.claimStep btc crate step).Orderly := by
  cases step with
  | history hist =>
      exact (orderly.handleHistoryResponse crate hist).recordReportedHeights _
  | txs txs =>
      exact orderly.congr (pendingClaims_handleTxsResponse txs)
  | resolve headers =>
      exact orderly.resolvePendingClaims btc headers
  | confirm reportedHeight header =>
      exact orderly.confirmPendingClaims btc reportedHeight header

theorem Orderly.claimRun
    (orderly : coins.Orderly)
    (steps : List (ClaimStep HeaderRows Raw)) :
    (coins.claimRun btc crate steps).Orderly :=
  List.foldlRecOn steps (CoinStore.claimStep btc crate) orderly
    (fun _ held step _ => held.claimStep step)

theorem claimed_recordHistory
    {hist : BTreeMap ScriptBuf History}
    {txid : Txid}
    {last : Nat}
    (isLast :
      lastReported (coins.handleHistoryResponse crate hist).1.reported
        txid = some last)
    (isOpen : (coins.recordHistory crate hist).Open txid)
    (height : Nat) :
    (coins.recordHistory crate hist).Claimed ⟨txid, height⟩ ↔
      height = last := by
  refine claimed_of_reported ?_ isLast height
  simp only [recordHistory, Open, txStore_recordReportedHeights] at isOpen
  exact isOpen

theorem claimed_claimStep_of_awaited
    {txid : Txid}
    {height : Nat}
    (step : ClaimStep HeaderRows Raw)
    (awaited : coins.Awaited txid)
    (claimed : coins.Claimed ⟨txid, height⟩)
    (undemoted : ¬ coins.Demotes txid step)
    (isOpen : (coins.claimStep btc crate step).Open txid) :
    (coins.claimStep btc crate step).Claimed
      ⟨txid, (coins.newest crate txid step).getD height⟩ := by
  cases step with
  | history hist =>
      cases reported :
          lastReported (coins.handleHistoryResponse crate hist).1.reported
            txid with
      | some last =>
          rw [newest, reported]
          exact (claimed_recordHistory reported isOpen last).mpr rfl
      | none =>
          have unmoved :
              ∀ row ∈ hist.toList,
                txid ∉ (coins.spkDiff row.1 row.2).changed :=
            fun row listed moved => undemoted ⟨row, listed, moved⟩
          have folded :=
            (claimed_handleHistoryResponse crate hist ⟨txid, height⟩).mpr
              ⟨claimed, unmoved⟩
          rw [newest, reported]
          refine (claimed_of_unreported ?_).mpr folded
          exact reported
  | txs txs =>
      rw [Claimed] at claimed ⊢
      exact claimed
  | resolve headers =>
      refine (claimed_resolvePendingClaims_of_awaited ?_).mpr claimed
      exact awaited
  | confirm reportedHeight header =>
      refine
        (claimed_confirmPendingClaims_of_awaited ?_ btc reportedHeight
          header).mpr claimed
      exact awaited

/--
Whatever is folded and resolved in whatever order, a transaction has at most
one claim, the one reported last, and keeps it while it is awaited.
-/
theorem one_claim_per_transaction
    (btc : Bitcoin Raw)
    (crate : TxCrate)
    (addressStore : AddressStore)
    (txStore : TxStore Backend)
    (labels : BTreeMap OutPoint String)
    (headerScanner : Bool)
    (steps : List (ClaimStep HeaderRows Raw)) :
    ClaimLaw HeaderRows btc crate
      ((CoinStore.new addressStore txStore labels headerScanner).claimRun
        btc crate steps) where
  orderly := by
    refine Orderly.claimRun ?_ steps
    refine ⟨?_, ?_⟩
    · intro height txids found
      simp [CoinStore.new] at found
    · rintro txid first second ⟨txids, found, -⟩ -
      simp [CoinStore.new] at found
  recorded := fun _ _ _ isLast isOpen height =>
    claimed_recordHistory isLast isOpen height
  held := fun step _ _ awaited claimed undemoted isOpen =>
    claimed_claimStep_of_awaited step awaited claimed undemoted isOpen

end Runs

end CoinStore

end Bwk
