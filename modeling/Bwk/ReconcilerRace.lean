import Bwk.ReconcilerSafety

namespace Bwk

/-!
# A proof judged while histories are folded

The reconciler looks up the target of a proof under one lock of the coin store
and applies the verdict under another; the listener may fold histories in
between.  Applying the verdict does not look at the transaction again, so a
demotion folded in between is overwritten.
-/

namespace CoinStore

variable {Backend HeaderRows Raw : Type}
variable {btc : Bitcoin Raw} {headers : HeaderStore HeaderRows Raw}
variable {crate : TxCrate} {coins : CoinStore Backend} {txid : Txid}

theorem resolveClaims_append
    (pass : ChainPass Backend)
    (first second : List ClaimAt) :
    (resolveClaims btc headers pass (first ++ second)).2 =
      (resolveClaims btc headers
        (resolveClaims btc headers pass first).2 second).2 := by
  induction first generalizing pass with
  | nil =>
      rfl
  | cons claim rest inductionHypothesis =>
      exact inductionHypothesis _

variable {pass : ChainPass Backend} {height : Nat} {blockHash : BlockHash}

theorem pendingClaimsSnapshot_split
    (lowest : coins.pendingClaimHeight txid = some height) :
    ∃ before after,
      coins.pendingClaimsSnapshot =
        before ++ (⟨txid, height⟩ : ClaimAt) :: after ∧
      ∀ claim ∈ before, claim.txid ≠ txid := by
  obtain ⟨row, found, sameHeight⟩ := Option.map_eq_some_iff.mp lowest
  obtain ⟨here, lower, higher, shape, others⟩ :=
    List.find?_eq_some_iff_append.mp found
  obtain ⟨rowHeight, txids⟩ := row
  have isHeight : rowHeight = height := sameHeight
  subst rowHeight
  have member : txid ∈ txids.toList :=
    Std.ExtTreeSet.mem_toList.mpr (of_decide_eq_true here)
  obtain ⟨smaller, larger, listed, fresh⟩ :=
    List.eq_append_cons_of_mem member
  refine ⟨lower.flatMap (fun row =>
      row.2.toList.map (fun txid => ⟨txid, row.1⟩)) ++
      smaller.map (fun txid => ⟨txid, height⟩),
    larger.map (fun txid => ⟨txid, height⟩) ++
      higher.flatMap (fun row =>
        row.2.toList.map (fun txid => ⟨txid, row.1⟩)), ?_, ?_⟩
  · rw [pendingClaimsSnapshot, shape]
    simp [listed]
  · intro claim inBefore
    rcases List.mem_append.mp inBefore with inLower | inSmaller
    · obtain ⟨⟨lowHeight, lowTxids⟩, inRows, inRow⟩ :=
        List.mem_flatMap.mp inLower
      obtain ⟨name, isMember, rfl⟩ := List.mem_map.mp inRow
      rintro rfl
      have notThere := others (lowHeight, lowTxids) inRows
      simp [Std.ExtTreeSet.mem_toList.mp isMember] at notThere
    · obtain ⟨name, isMember, rfl⟩ := List.mem_map.mp inSmaller
      rintro rfl
      exact fresh isMember

theorem inclusionOf_resolveClaims_others
    {claims : List ClaimAt}
    (others : ∀ claim ∈ claims, claim.txid ≠ txid) :
    (resolveClaims btc headers pass claims).2.coins.txStore.inclusionOf
        txid =
      pass.coins.txStore.inclusionOf txid := by
  induction claims generalizing pass with
  | nil =>
      rfl
  | cons claim rest inductionHypothesis =>
      refine (inductionHypothesis (fun other listed =>
        others other (List.mem_cons_of_mem _ listed))).trans ?_
      rcases resolveClaim_cases btc headers pass claim with
        same | ⟨blockHash, -, -, restamped⟩
      · rw [same]
      · rw [restamped, inclusionOf_stamp,
          if_neg (others claim List.mem_cons_self)]

theorem inclusionOf_resolveClaims_stamped
    (stamped :
      pass.coins.txStore.inclusionOf txid =
        some (.confirmedUnverified height blockHash))
    (claims : List ClaimAt) :
    (resolveClaims btc headers pass claims).2.coins.txStore.inclusionOf
        txid =
      some (.confirmedUnverified height blockHash) := by
  refine resolveClaims_keeps
    (fun pass => pass.coins.txStore.inclusionOf txid =
      some (.confirmedUnverified height blockHash)) stamped ?_
  intro pass claim isStamped
  rcases resolveClaim_cases btc headers pass claim with
    same | ⟨hash, -, unconfirmed, restamped⟩
  · rw [same]
    exact isStamped
  · have other : claim.txid ≠ txid := by
      rintro rfl
      rw [isStamped] at unconfirmed
      cases unconfirmed
    rw [restamped, inclusionOf_stamp, if_neg other]
    exact isStamped

theorem resolvePendingClaims_promotes
    (unconfirmed : coins.txStore.inclusionOf txid = some .unconfirmed)
    (lowest : coins.pendingClaimHeight txid = some height)
    (known : readyHash btc headers height = some blockHash) :
    (coins.resolvePendingClaims btc headers).coins.txStore.inclusionOf
        txid =
      some (.confirmedUnverified height blockHash) := by
  obtain ⟨before, after, shape, others⟩ := pendingClaimsSnapshot_split lowest
  rw [txStore_resolvePendingClaims, shape, resolveClaims_append]
  have reached :
      (resolveClaims btc headers (ChainPass.start coins)
        before).2.coins.txStore.inclusionOf txid = some .unconfirmed :=
    (inclusionOf_resolveClaims_others others).trans unconfirmed
  refine inclusionOf_resolveClaims_stamped ?_ after
  simp only [resolveClaim, reached, known, inclusionOf_stamp, ↓reduceIte,
    Option.map_some]

theorem inclusionOf_reverify_unconfirmed
    (unconfirmed : coins.txStore.inclusionOf txid = some .unconfirmed) :
    (coins.reverifyReminedEntries btc headers).coins.txStore.inclusionOf
        txid =
      some .unconfirmed := by
  refine reverifyReminedEntries_keeps
    (fun pass => pass.coins.txStore.inclusionOf txid = some .unconfirmed)
    unconfirmed ?_
  rintro pass kept ⟨name, inclusion⟩ listed
  have stored := mem_snapshotInclusions.mp listed
  rcases reverifyEntry_cases btc headers pass (name, inclusion) with
    same | ⟨height, hash, -, -, requeued⟩ |
      ⟨height, hash, current, -, -, shape, restamped⟩
  · rw [same]
    exact kept
  · rw [requeued]
    exact kept
  · have other : name ≠ txid := by
      rintro rfl
      rw [unconfirmed] at stored
      cases stored
      rcases shape with impossible | impossible | impossible <;>
        cases impossible
    rw [restamped, inclusionOf_stamp, if_neg other]
    exact kept

@[simp] theorem pendingClaims_reverifyReminedEntries :
    (coins.reverifyReminedEntries btc headers).coins.pendingClaims =
      coins.pendingClaims := by
  refine reverifyReminedEntries_keeps
    (fun pass => pass.coins.pendingClaims = coins.pendingClaims) rfl ?_
  intro pass same entry _
  rcases reverifyEntry_cases btc headers pass entry with
    stays | ⟨height, hash, -, -, requeued⟩ |
      ⟨height, hash, current, -, -, -, restamped⟩
  · rw [stays]
    exact same
  · rw [requeued]
    exact same
  · rw [restamped]
    exact same

variable [PersistenceBackend Backend Txid TxEntry]

/-- Fold histories one after the other, each under its own lock. -/
def foldAll
    (crate : TxCrate)
    (coins : CoinStore Backend)
    (folds : List (Bool × BTreeMap ScriptBuf History)) :
    CoinStore Backend :=
  folds.foldl (fun coins fold => coins.foldHistory crate fold.1 fold.2) coins

/-- Fold transaction responses one after the other. -/
def receiveAll
    (crate : TxCrate)
    (coins : CoinStore Backend)
    (responses : List (List Transaction)) : CoinStore Backend :=
  responses.foldl (CoinStore.handleTxsResponse crate) coins

/-- The transaction is gone or back to unconfirmed. -/
def Retracted (coins : CoinStore Backend) (txid : Txid) : Prop :=
  coins.txStore.inclusionOf txid = none ∨
    coins.txStore.inclusionOf txid = some .unconfirmed

/-- Some fold removed the transaction or reset it to unconfirmed. -/
def Overtaken
    (crate : TxCrate)
    (coins : CoinStore Backend)
    (txid : Txid)
    (folds : List (Bool × BTreeMap ScriptBuf History)) : Prop :=
  ∃ earlier fold later, folds = earlier ++ fold :: later ∧
    ¬ (coins.foldAll crate earlier).Retracted txid ∧
    (coins.foldAll crate (earlier ++ [fold])).Retracted txid

theorem foldAll_shrinks
    (sound : coins.Sound crate)
    (folds : List (Bool × BTreeMap ScriptBuf History)) :
    (coins.foldAll crate folds).Sound crate ∧
      Shrinks coins.txStore (coins.foldAll crate folds).txStore := by
  induction folds generalizing coins with
  | nil =>
      exact ⟨sound, Shrinks.refl _⟩
  | cons fold rest inductionHypothesis =>
      obtain ⟨soundNext, first⟩ :=
        foldHistory_shrinks sound fold.1 fold.2
      obtain ⟨soundLast, others⟩ := inductionHypothesis soundNext
      exact ⟨soundLast, first.trans others⟩

omit [PersistenceBackend Backend Txid TxEntry] in
theorem Retracted.shrinks
    {before after : CoinStore Backend}
    (retracted : before.Retracted txid)
    (shrinks : Shrinks before.txStore after.txStore) :
    after.Retracted txid := by
  rcases shrinks.inclusionOf txid with same | gone | ⟨-, demoted⟩
  · rw [Retracted, same]
    exact retracted
  · exact .inl gone
  · exact .inr demoted

theorem overtaken_iff
    (sound : coins.Sound crate)
    (standing : ¬ coins.Retracted txid)
    (folds : List (Bool × BTreeMap ScriptBuf History)) :
    Overtaken crate coins txid folds ↔
      (coins.foldAll crate folds).Retracted txid := by
  constructor
  · rintro ⟨earlier, fold, later, rfl, -, retracted⟩
    have soundMiddle :=
      (foldAll_shrinks sound (earlier ++ [fold])).1
    have shape :
        coins.foldAll crate (earlier ++ fold :: later) =
          (coins.foldAll crate (earlier ++ [fold])).foldAll crate later := by
      simp [foldAll]
    rw [shape]
    exact retracted.shrinks (foldAll_shrinks soundMiddle later).2
  · induction folds using List.reverseRecOn with
    | nil =>
        exact fun retracted => absurd retracted standing
    | append_singleton folds fold inductionHypothesis =>
        intro retracted
        by_cases before : (coins.foldAll crate folds).Retracted txid
        · obtain ⟨earlier, first, later, rfl, was, became⟩ :=
            inductionHypothesis before
          exact ⟨earlier, first, later ++ [fold], by simp, was, became⟩
        · exact ⟨folds, fold, [], rfl, before, retracted⟩

theorem inclusionOf_receiveAll_unconfirmed
    (sound : coins.Sound crate)
    (responses : List (List Transaction))
    (unconfirmed : coins.txStore.inclusionOf txid = some .unconfirmed) :
    (coins.receiveAll crate responses).txStore.inclusionOf txid =
      some .unconfirmed := by
  induction responses generalizing coins with
  | nil =>
      exact unconfirmed
  | cons txs rest inductionHypothesis =>
      refine inductionHypothesis (sound.handleTxsResponse txs) ?_
      rcases inclusionOf_handleTxsResponse sound txs txid with
        same | ⟨absent, -⟩
      · rw [same]
        exact unconfirmed
      · rw [unconfirmed] at absent
        cases absent

theorem receiveAll_added
    (sound : coins.Sound crate)
    (responses : List (List Transaction)) :
    (coins.receiveAll crate responses).Sound crate ∧
      (coins.txStore.inclusionOf txid = none →
        (coins.receiveAll crate responses).Retracted txid) := by
  induction responses generalizing coins with
  | nil =>
      exact ⟨sound, .inl⟩
  | cons txs rest inductionHypothesis =>
      have added := inclusionOf_handleTxsResponse sound txs txid
      have soundNext := sound.handleTxsResponse txs
      obtain ⟨soundLast, absentLast⟩ := inductionHypothesis soundNext
      refine ⟨soundLast, fun absent => ?_⟩
      rcases added with same | ⟨-, unconfirmed⟩
      · exact absentLast (same.trans absent)
      · exact .inr (inclusionOf_receiveAll_unconfirmed soundNext rest
          unconfirmed)

end CoinStore

namespace Reconciler

variable {Backend HeaderRows Raw : Type}
variable [PersistenceBackend Backend Txid TxEntry]
variable {btc : Bitcoin Raw} {crate : TxCrate}
variable {hashPair : TxMerkleNode → TxMerkleNode → TxMerkleNode}
variable {rec : Reconciler Backend HeaderRows Raw} {txid : Txid}

theorem onChainUpdate_promotes
    {height : Nat}
    {blockHash : BlockHash}
    (sound : rec.coins.Sound crate)
    (valid : rec.headers.isValidated = true)
    (unconfirmed : rec.coins.txStore.inclusionOf txid = some .unconfirmed)
    (lowest : rec.coins.pendingClaimHeight txid = some height)
    (known : CoinStore.readyHash btc rec.headers height = some blockHash) :
    (rec.onChainUpdate btc crate).coins.txStore.inclusionOf txid =
      some (.confirmedUnverified height blockHash) := by
  have promoted : (rec.passed btc).2.coins.Sound crate :=
    (sound.reverifyReminedEntries).resolvePendingClaims
  rw [(onChainUpdate_of_validated btc crate valid).1,
    (commitChainUpdate_same
      { rec with coins := (rec.passed btc).2.coins } promoted _).2 txid]
  refine CoinStore.resolvePendingClaims_promotes
    (CoinStore.inclusionOf_reverify_unconfirmed unconfirmed) ?_ known
  rw [CoinStore.pendingClaimHeight,
    CoinStore.pendingClaims_reverifyReminedEntries]
  exact lowest

/-- The verdict on a proof, applied after histories were folded. -/
def judgedLate
    (crate : TxCrate)
    (hashPair : TxMerkleNode → TxMerkleNode → TxMerkleNode)
    (rec : Reconciler Backend HeaderRows Raw)
    (target : MerkleTarget)
    (branch : List TxMerkleNode)
    (pos : UInt32)
    (folds : List (Bool × BTreeMap ScriptBuf History)) :
    Reconciler Backend HeaderRows Raw :=
  applyTxMerkle crate hashPair
    { rec with coins := rec.coins.foldAll crate folds } target branch pos

/--
The proof did not mark the transaction at the old height, and the claim queued
for the new one is resolved by the next pass that knows its header, once the
transaction is stored.
-/
structure HistoryWins
    (btc : Bitcoin Raw)
    (crate : TxCrate)
    (judged : Reconciler Backend HeaderRows Raw)
    (target : MerkleTarget) : Prop where
  unmarked :
    ∀ blockHash,
      judged.coins.txStore.inclusionOf target.txid ≠
          some (.verified target.height blockHash) ∧
        judged.coins.txStore.inclusionOf target.txid ≠
          some (.verifyFailed target.height blockHash)
  resolves :
    ∀ (responses : List (List Transaction))
      (headers : HeaderStore HeaderRows Raw)
      (newHeight : Nat)
      (blockHash : BlockHash),
      headers.isValidated = true →
      (judged.coins.receiveAll crate responses).txStore.inclusionOf
          target.txid ≠ none →
      (judged.coins.receiveAll crate responses).pendingClaimHeight
          target.txid = some newHeight →
      CoinStore.readyHash btc headers newHeight = some blockHash →
      (onChainUpdate btc crate
        { judged with
          coins := judged.coins.receiveAll crate responses
          headers := headers }).coins.txStore.inclusionOf target.txid =
        some (.confirmedUnverified newHeight blockHash)

theorem verdict_marks
    (hashPair : TxMerkleNode → TxMerkleNode → TxMerkleNode)
    (target : MerkleTarget)
    (branch : List TxMerkleNode)
    (pos : UInt32) :
    verdict hashPair target branch pos =
        .verified target.height target.blockHash ∨
      verdict hashPair target branch pos =
        .verifyFailed target.height target.blockHash := by
  unfold verdict
  split
  · exact .inl rfl
  · exact .inr rfl

/--
In every reachable state and for every run of histories folded while a proof
is being judged: history wins exactly when it did not leave the transaction
stored as unconfirmed.
-/
theorem history_wins_iff
    (btc : Bitcoin Raw)
    (crate : TxCrate)
    (hashPair : TxMerkleNode → TxMerkleNode → TxMerkleNode)
    (addressStore : AddressStore)
    (labels : BTreeMap OutPoint String)
    (backend : Backend)
    (headers : HeaderStore HeaderRows Raw)
    (steps : List (ScanStep HeaderRows Raw))
    (txid : Txid)
    (height : Nat)
    (branch : List TxMerkleNode)
    (pos : UInt32)
    (target : MerkleTarget)
    (folds : List (Bool × BTreeMap ScriptBuf History))
    (judging : Reconciler Backend HeaderRows Raw)
    (reached :
      judging =
        ((fresh addressStore labels backend headers).run btc crate hashPair
          steps).freed ⟨txid, height⟩)
    (resolved :
      judging.resolveTxMerkleTarget btc txid height = some target) :
    (CoinStore.Overtaken crate judging.coins txid folds →
        HistoryWins btc crate
          (judging.judgedLate crate hashPair target branch pos folds)
          target) ↔
      (judging.coins.foldAll crate folds).txStore.inclusionOf txid ≠
        some .unconfirmed := by
  have sound : judging.coins.Sound crate := by
    have before :
        ((fresh addressStore labels backend headers).run btc crate hashPair
          steps).coins.Sound crate :=
      sound_run btc hashPair
        (sound_fresh addressStore labels backend headers) steps
    rw [reached]
    exact ⟨before.keyed, before.slots⟩
  obtain ⟨header, -, rfl, claimed⟩ := resolveTxMerkleTarget_eq_some resolved
  have standing : ¬ judging.coins.Retracted txid := by
    rintro (gone | unconfirmed)
    · rw [claimed] at gone
      cases gone
    · rw [claimed] at unconfirmed
      cases unconfirmed
  have soundFolded := (CoinStore.foldAll_shrinks sound folds).1
  obtain ⟨soundJudged, marks⟩ :=
    applyTxMerkle_verdict hashPair
      { judging with coins := judging.coins.foldAll crate folds } soundFolded
      ⟨txid, height, btc.blockHash header, header.merkleRoot⟩ branch pos
  rw [CoinStore.overtaken_iff sound standing]
  constructor
  · intro wins unconfirmed
    have unmarked :=
      (wins (.inr unconfirmed)).unmarked (btc.blockHash header)
    have marked := marks txid
    rw [if_pos rfl, unconfirmed] at marked
    rcases verdict_marks hashPair
      ⟨txid, height, btc.blockHash header, header.merkleRoot⟩ branch pos with
      proven | refused
    · rw [proven] at marked
      exact unmarked.1 marked
    · rw [refused] at marked
      exact unmarked.2 marked
  · intro notUnconfirmed retracted
    have gone :
        (judging.coins.foldAll crate folds).txStore.inclusionOf txid =
          none :=
      retracted.resolve_right notUnconfirmed
    have stillGone :
        (judging.judgedLate crate hashPair
          ⟨txid, height, btc.blockHash header, header.merkleRoot⟩ branch pos
          folds).coins.txStore.inclusionOf txid = none := by
      have after := marks txid
      rw [if_pos rfl, gone] at after
      exact after
    refine ⟨?_, ?_⟩
    · intro blockHash
      rw [stillGone]
      exact ⟨nofun, nofun⟩
    · intro responses newHeaders newHeight blockHash valid stored lowest known
      obtain ⟨soundReceived, brought⟩ :=
        CoinStore.receiveAll_added soundJudged responses
      exact onChainUpdate_promotes soundReceived valid
        ((brought stillGone).resolve_left stored) lowest known

/-- The sample scan while it judges the proof of its transaction. -/
def sampleJudging :
    Reconciler (RowBackend Txid TxEntry) (RowBackend Nat Header) Header :=
  (sampleStart.run Bitcoin.sample TxCrate.sample (· + ·)
    sampleClaim).freed ⟨7, 1⟩

/-- What the sample proof is judged against. -/
def sampleTarget : MerkleTarget :=
  ⟨7, 1, 100, 7⟩

/-- The server reports the sample transaction at another height. -/
def sampleFold (height : Option Nat) :
    List (Bool × BTreeMap ScriptBuf History) :=
  [(true, (∅ : BTreeMap ScriptBuf History).insert 0 [(7, height)])]

/--
A transaction moved to height two while its proof at height one was judged is
marked verified at height one, and its claim at height two is lost.
-/
theorem stale_proof_overrides_history :
    CoinStore.Overtaken TxCrate.sample sampleJudging.coins 7
        (sampleFold (some 2)) ∧
      ¬ HistoryWins Bitcoin.sample TxCrate.sample
          (sampleJudging.judgedLate TxCrate.sample (· + ·) sampleTarget [] 0
            (sampleFold (some 2))) sampleTarget ∧
      ((sampleJudging.judgedLate TxCrate.sample (· + ·) sampleTarget [] 0
          (sampleFold (some 2))).onChainUpdate Bitcoin.sample
            TxCrate.sample).coins.txStore.inclusionOf 7 =
        some (.verified 1 100) := by
  have marked :
      (sampleJudging.judgedLate TxCrate.sample (· + ·) sampleTarget [] 0
        (sampleFold (some 2))).coins.txStore.inclusionOf 7 =
        some (.verified 1 100) := by
    decide +kernel
  refine ⟨⟨[], (true, (∅ : BTreeMap ScriptBuf History).insert 0
    [(7, some 2)]), [], rfl, ?_, ?_⟩, ?_, by decide +kernel⟩
  · have standing :
        (sampleJudging.coins.foldAll TxCrate.sample []).txStore.inclusionOf
          7 = some (.confirmedUnverified 1 100) := by
      decide +kernel
    rintro (gone | unconfirmed)
    · rw [standing] at gone
      cases gone
    · rw [standing] at unconfirmed
      cases unconfirmed
  · have unconfirmed :
        (sampleJudging.coins.foldAll TxCrate.sample
          (sampleFold (some 2))).txStore.inclusionOf 7 =
          some .unconfirmed := by
      decide +kernel
    exact .inr unconfirmed
  · intro wins
    exact (wins.unmarked 100).1 marked

theorem sampleJudging_eq :
    sampleJudging =
      ((fresh AddressStore.sample ∅ (⟨∅, []⟩ : RowBackend Txid TxEntry)
        (sampleHeaders [(1, sampleHeader 7 100),
          (2, sampleHeader 8 200)])).run Bitcoin.sample TxCrate.sample
            (· + ·) sampleClaim).freed ⟨7, 1⟩ := by
  rw [← sampleStart, ← sampleJudging]

/-- The server stops reporting the sample transaction. -/
def sampleDrop : List (Bool × BTreeMap ScriptBuf History) :=
  [(true, (∅ : BTreeMap ScriptBuf History).insert 0 [])]

/-- A transaction dropped while its proof was judged stays dropped. -/
theorem history_wins_dropped :
    sampleJudging.resolveTxMerkleTarget Bitcoin.sample 7 1 =
        some sampleTarget ∧
      (CoinStore.Overtaken TxCrate.sample sampleJudging.coins 7 sampleDrop →
        HistoryWins Bitcoin.sample TxCrate.sample
          (sampleJudging.judgedLate TxCrate.sample (· + ·) sampleTarget [] 0
            sampleDrop) sampleTarget) := by
  have resolved :
      sampleJudging.resolveTxMerkleTarget Bitcoin.sample 7 1 =
        some sampleTarget := by
    decide +kernel
  have dropped :
      (sampleJudging.coins.foldAll TxCrate.sample
        sampleDrop).txStore.inclusionOf 7 ≠ some .unconfirmed := by
    decide +kernel
  have wins :=
    history_wins_iff Bitcoin.sample TxCrate.sample (· + ·)
      AddressStore.sample ∅ (⟨∅, []⟩ : RowBackend Txid TxEntry)
      (sampleHeaders [(1, sampleHeader 7 100), (2, sampleHeader 8 200)])
      sampleClaim 7 1 [] 0 sampleTarget sampleDrop sampleJudging
      sampleJudging_eq resolved
  exact ⟨resolved, wins.mpr dropped⟩

end Reconciler

end Bwk
