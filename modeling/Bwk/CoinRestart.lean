import Bwk.CoinClaims
import Bwk.CoinTimes

namespace Bwk

/-!
# The first histories after a restart

A new session compares the first history of every script with an empty one.
So nothing of a truthful first report is changed or removed, whatever the
stored transactions say: they all stay as they were stored, and only
unconfirmed ones take up a claim.
-/

theorem SpkHistory.insert_quiet
    (spk : SpkHistory)
    (reported : History)
    (known :
      spk.last = ∅ ∨ spk.last = (∅ : HistoryMap).insertAll reported) :
    (∀ txid, txid ∉ (spk.insert reported).1.changed ∧
        txid ∉ (spk.insert reported).1.removed) ∧
      (spk.insert reported).2.last =
        (∅ : HistoryMap).insertAll reported := by
  have pushed (next : HistoryMap) : (spk.push next).last = next := by
    simp [push, last]
  unfold SpkHistory.insert
  dsimp only
  split
  · rename_i noneBefore
    split
    · rename_i noneNow
      refine ⟨fun txid => ⟨by simp, by simp⟩, ?_⟩
      rw [Std.ExtTreeMap.isEmpty_iff.mp noneBefore,
        Std.ExtTreeMap.isEmpty_iff.mp noneNow]
    · exact ⟨fun txid => ⟨by simp, by simp⟩, pushed _⟩
  · rename_i someBefore
    have repeated : spk.last = (∅ : HistoryMap).insertAll reported := by
      refine known.resolve_left ?_
      intro nothing
      rw [nothing] at someBefore
      simp at someBefore
    refine ⟨fun txid => ⟨?_, ?_⟩, pushed _⟩
    · rw [BTreeMap.mem_iff_getElem?, BTreeMap.getElem?_retain, repeated]
      rintro ⟨height, isKept⟩
      obtain ⟨found, differs⟩ := Option.filter_eq_some_iff.mp isKept
      rw [found] at differs
      simp at differs
    · rw [BTreeMap.mem_iff_getElem?, BTreeMap.getElem?_retain, repeated]
      rintro ⟨height, isKept⟩
      obtain ⟨found, absent⟩ := Option.filter_eq_some_iff.mp isKept
      exact of_decide_eq_true absent
        (BTreeMap.mem_iff_getElem?.mpr ⟨height, found⟩)

/-- What a server knows: the transactions of each script, and their heights. -/
structure ServerView where
  histories : ScriptBuf → List Txid
  heightOf : Txid → Option Nat

namespace ServerView

def history (server : ServerView) (spk : ScriptBuf) : History :=
  (server.histories spk).map (fun txid => (txid, server.heightOf txid))

def Answers
    (server : ServerView)
    (hist : BTreeMap ScriptBuf History) : Prop :=
  ∀ (spk : ScriptBuf) history, hist[spk]? = some history →
    history = server.history spk

/-- An answer has the transaction in the history of one of its scripts. -/
def Reports
    (server : ServerView)
    (hist : BTreeMap ScriptBuf History)
    (txid : Txid) : Prop :=
  ∃ spk, spk ∈ hist ∧ txid ∈ server.histories spk

end ServerView

namespace CoinStore

variable {Backend : Type} [PersistenceBackend Backend Txid TxEntry]
variable {crate : TxCrate} {server : ServerView}
variable {coins : CoinStore Backend}

/-- Every script with a history has the one the server reports. -/
def HistoriesOf
    (server : ServerView)
    (coins : CoinStore Backend) : Prop :=
  ∀ (spk : ScriptBuf) known, coins.spkHistory[spk]? = some known →
    known.last = (∅ : HistoryMap).insertAll (server.history spk)

omit [PersistenceBackend Backend Txid TxEntry] in
theorem HistoriesOf.quiet
    (current : coins.HistoriesOf server)
    (spk : ScriptBuf)
    (txid : Txid) :
    txid ∉ (coins.spkDiff spk (server.history spk)).changed ∧
      txid ∉ (coins.spkDiff spk (server.history spk)).removed := by
  refine (SpkHistory.insert_quiet _ _ ?_).1 txid
  cases known : coins.spkHistory[spk]? with
  | none =>
      exact .inl rfl
  | some history =>
      exact .inr (current spk history known)

omit [PersistenceBackend Backend Txid TxEntry] in
theorem HistoriesOf.updateSpkHistory
    (current : coins.HistoriesOf server)
    (spk : ScriptBuf) :
    (coins.updateSpkHistory spk
      (server.history spk)).2.HistoriesOf server := by
  intro query known found
  rw [spkHistory_updateSpkHistory, BTreeMap.getElem?_insert_eq] at found
  split at found
  · rename_i here
    subst here
    cases found
    refine (SpkHistory.insert_quiet _ _ ?_).2
    cases before : coins.spkHistory[spk]? with
    | none =>
        exact .inl rfl
    | some history =>
        exact .inr (current spk history before)
  · exact current query known found

omit [PersistenceBackend Backend Txid TxEntry] in
theorem HistoriesOf.updateHistories
    (current : coins.HistoriesOf server)
    {hist : List (ScriptBuf × History)}
    (truthful : ∀ row ∈ hist, row.2 = server.history row.1) :
    (coins.updateHistories hist).2.HistoriesOf server ∧
      ∀ txid,
        (coins.updateHistories hist).2.txStore.get txid =
          coins.txStore.get txid := by
  induction hist generalizing coins with
  | nil =>
      exact ⟨current, fun _ => rfl⟩
  | cons row rest inductionHypothesis =>
      obtain ⟨spk, reported⟩ := row
      have isTruth : reported = server.history spk :=
        truthful _ List.mem_cons_self
      subst isTruth
      have watched :
          CoinStore.HistoriesOf server
            { coins with
              addressStore := coins.addressStore.recvCoinAt spk } :=
        current
      obtain ⟨after, same⟩ :=
        inductionHypothesis (watched.updateSpkHistory spk)
          (fun later listed => truthful later (List.mem_cons_of_mem _ listed))
      refine ⟨after, fun txid => ?_⟩
      obtain ⟨unchanged, unremoved⟩ := watched.quiet spk txid
      refine (same txid).trans ?_
      rw [get_updateSpkHistory, if_neg unchanged, if_neg unremoved]

/-- What truthful answers leave of the stores a session starts with. -/
structure Resumed
    (crate : TxCrate)
    (server : ServerView)
    (before coins : CoinStore Backend) : Prop where
  sound : coins.Sound crate
  current : coins.HistoriesOf server
  same :
    ∀ txid,
      coins.txStore.inclusionOf txid = before.txStore.inclusionOf txid
  claims :
    ∀ claim, coins.Claimed claim →
      server.heightOf claim.txid = some claim.height ∧
        claim.height ≤ u32Max

theorem mem_reportedClaims
    (server : ServerView)
    (spk : ScriptBuf)
    (claim : ClaimAt) :
    claim ∈ reportedClaims (server.history spk) ↔
      claim.txid ∈ server.histories spk ∧
        server.heightOf claim.txid = some claim.height ∧
          claim.height ≤ u32Max := by
  rw [reportedClaims, List.mem_filterMap]
  constructor
  · rintro ⟨⟨txid, reported⟩, member, isClaim⟩
    obtain ⟨name, inHistory, same⟩ := List.mem_map.mp member
    cases same
    cases known : server.heightOf txid with
    | none =>
        simp [known] at isClaim
    | some height =>
        simp only [known] at isClaim
        split at isClaim
        · rename_i fits
          cases isClaim
          exact ⟨inHistory, known, fits⟩
        · cases isClaim
  · rintro ⟨inHistory, known, fits⟩
    refine ⟨(claim.txid, some claim.height), ?_, ?_⟩
    · exact List.mem_map.mpr ⟨claim.txid, inHistory, by rw [known]⟩
    · simp [fits]

variable {before : CoinStore Backend} {hist : BTreeMap ScriptBuf History}

theorem mem_reported
    (answers : server.Answers hist)
    (claim : ClaimAt) :
    claim ∈ hist.toList.flatMap (fun row => reportedClaims row.2) ↔
      server.Reports hist claim.txid ∧
        server.heightOf claim.txid = some claim.height ∧
          claim.height ≤ u32Max := by
  rw [List.mem_flatMap]
  constructor
  · rintro ⟨⟨spk, history⟩, listed, member⟩
    have found : hist[spk]? = some history :=
      Std.ExtTreeMap.mem_toList_iff_getElem?_eq_some.mp listed
    rw [answers spk history found, mem_reportedClaims] at member
    exact ⟨⟨spk, BTreeMap.mem_iff_getElem?.mpr ⟨history, found⟩, member.1⟩,
      member.2⟩
  · rintro ⟨⟨spk, answered, inHistory⟩, claimable⟩
    obtain ⟨history, found⟩ := BTreeMap.mem_iff_getElem?.mp answered
    refine ⟨(spk, history),
      Std.ExtTreeMap.mem_toList_iff_getElem?_eq_some.mpr found, ?_⟩
    rw [answers spk history found, mem_reportedClaims]
    exact ⟨inHistory, claimable⟩

theorem HistoriesOf.handleHistoryResponse
    (current : coins.HistoriesOf server)
    (sound : coins.Sound crate)
    (answers : server.Answers hist) :
    (coins.handleHistoryResponse crate hist).2.HistoriesOf server ∧
      ∀ txid,
        (coins.handleHistoryResponse crate hist).2.txStore.inclusionOf
            txid =
          coins.txStore.inclusionOf txid := by
  have truthful :
      ∀ row ∈ hist.toList, row.2 = server.history row.1 :=
    fun row listed => answers row.1 row.2
      (Std.ExtTreeMap.mem_toList_iff_getElem?_eq_some.mp listed)
  obtain ⟨after, same⟩ := current.updateHistories truthful
  have keyed : (coins.foldedResponse hist).txStore.Keyed crate :=
    (shrinks_updateHistories coins hist.toList).keyed sound.keyed
  have sameInclusion (txid : Txid) :
      (coins.foldedResponse hist).txStore.inclusionOf txid =
        coins.txStore.inclusionOf txid :=
    congrArg (Option.map TxEntry.inclusion) (same txid)
  rcases handleHistoryResponse_eq crate coins hist with plain | regenerated
  · rw [plain]
    exact ⟨after, sameInclusion⟩
  · rw [regenerated]
    exact ⟨after, fun txid =>
      (inclusionOf_generate keyed txid).trans (sameInclusion txid)⟩

theorem Resumed.recordHistory
    (resumed : Resumed crate server before coins)
    (answers : server.Answers hist) :
    Resumed crate server before (coins.recordHistory crate hist) := by
  obtain ⟨current, same⟩ :=
    resumed.current.handleHistoryResponse resumed.sound answers
  have sound := resumed.sound.handleHistoryResponse hist
  simp only [CoinStore.recordHistory]
  refine ⟨⟨?_, ?_⟩, ?_, ?_, ?_⟩
  · rw [txStore_recordReportedHeights]
    exact sound.keyed
  · rw [updates_recordReportedHeights]
    exact sound.slots
  · rw [recordReportedHeights_eq]
    exact current
  · intro txid
    rw [txStore_recordReportedHeights]
    exact (same txid).trans (resumed.same txid)
  · intro claim claimed
    rcases mem_or_claimed_of_claimed claimed with reported | earlier
    · exact ((mem_reported answers claim).mp reported).2
    · exact resumed.claims claim
        ((claimed_handleHistoryResponse crate hist claim).mp earlier).1

theorem Resumed.claimed_of_reports
    (resumed : Resumed crate server before coins)
    (answers : server.Answers hist)
    {txid : Txid}
    {height : Nat}
    (unconfirmed : before.txStore.inclusionOf txid = some .unconfirmed)
    (known : server.heightOf txid = some height)
    (fits : height ≤ u32Max)
    (reported :
      server.Reports hist txid ∨ coins.Claimed ⟨txid, height⟩) :
    (coins.recordHistory crate hist).Claimed ⟨txid, height⟩ := by
  obtain ⟨-, same⟩ :=
    resumed.current.handleHistoryResponse resumed.sound answers
  have agree :
      ∀ claim ∈ hist.toList.flatMap (fun row => reportedClaims row.2),
        claim.txid = txid → claim.height = height := by
    rintro claim listed rfl
    have atHeight := ((mem_reported answers claim).mp listed).2.1
    rw [known] at atHeight
    exact (Option.some.inj atHeight).symm
  by_cases named : server.Reports hist txid
  · refine (claimed_of_reported ?_ (lastReported_eq_some ?_ agree) _).mpr rfl
    · exact .inr ((same txid).trans ((resumed.same txid).trans unconfirmed))
    · exact ⟨⟨txid, height⟩,
        (mem_reported answers _).mpr ⟨named, known, fits⟩, rfl⟩
  · have silent :
        lastReported
          (hist.toList.flatMap (fun row => reportedClaims row.2)) txid =
            none := by
      refine lastReported_eq_none ?_
      rintro claim listed rfl
      exact named ((mem_reported answers claim).mp listed).1
    refine (claimed_of_unreported silent).mpr
      ((claimed_handleHistoryResponse crate hist _).mpr
        ⟨reported.resolve_left named, ?_⟩)
    intro row listed
    have isTruth : row.2 = server.history row.1 :=
      answers row.1 row.2
        (Std.ExtTreeMap.mem_toList_iff_getElem?_eq_some.mp listed)
    rw [isTruth]
    exact (resumed.current.quiet row.1 txid).1

/-- Fold the answers one after the other. -/
def recordAll
    (crate : TxCrate)
    (coins : CoinStore Backend)
    (hists : List (BTreeMap ScriptBuf History)) : CoinStore Backend :=
  hists.foldl (recordHistory crate) coins

theorem resumed_recordAll
    (resumed : Resumed crate server before before)
    {hists : List (BTreeMap ScriptBuf History)}
    (answers : ∀ hist ∈ hists, server.Answers hist) :
    Resumed crate server before (before.recordAll crate hists) ∧
      ∀ txid height,
        before.txStore.inclusionOf txid = some .unconfirmed →
        server.heightOf txid = some height → height ≤ u32Max →
        (∃ hist ∈ hists, server.Reports hist txid) →
          (before.recordAll crate hists).Claimed ⟨txid, height⟩ := by
  induction hists using List.reverseRecOn with
  | nil =>
      exact ⟨resumed, fun _ _ _ _ _ reported => by simp at reported⟩
  | append_singleton earlier hist inductionHypothesis =>
      obtain ⟨soFar, claimed⟩ :=
        inductionHypothesis
          (fun other listed => answers other (List.mem_append_left _ listed))
      have last : server.Answers hist := answers hist (by simp)
      have shape :
          before.recordAll crate (earlier ++ [hist]) =
            (before.recordAll crate earlier).recordHistory crate hist := by
        simp [recordAll]
      rw [shape]
      refine ⟨soFar.recordHistory last, ?_⟩
      rintro txid height unconfirmed known fits ⟨named, listed, reported⟩
      refine soFar.claimed_of_reports last unconfirmed known fits ?_
      rcases List.mem_append.mp listed with inEarlier | isLast
      · exact .inr
          (claimed txid height unconfirmed known fits
            ⟨named, inEarlier, reported⟩)
      · rw [List.mem_singleton.mp isLast] at reported
        exact .inl reported

/-- What the stored transactions should be once the server has answered. -/
structure Thawed
    (server : ServerView)
    (hists : List (BTreeMap ScriptBuf History))
    (before after : CoinStore Backend) : Prop where
  /-- A transaction in no history is gone. -/
  removed :
    ∀ txid, before.txStore.get txid ≠ none →
      (∀ hist ∈ hists, ¬ server.Reports hist txid) →
        after.txStore.get txid = none
  /-- A transaction reported elsewhere, or nowhere, starts over. -/
  demoted :
    ∀ txid inclusion, before.txStore.inclusionOf txid = some inclusion →
      (∃ hist ∈ hists, server.Reports hist txid) →
        (inclusion.block.map Prod.fst ≠ server.heightOf txid ∨
          server.heightOf txid = none) →
          after.txStore.inclusionOf txid = some .unconfirmed ∧
            ∀ height, after.Claimed ⟨txid, height⟩ ↔
              server.heightOf txid = some height

/-- Every stored transaction is reported, and where it was stored. -/
def UpToDate
    (server : ServerView)
    (hists : List (BTreeMap ScriptBuf History))
    (before : CoinStore Backend) : Prop :=
  ∀ txid inclusion, before.txStore.inclusionOf txid = some inclusion →
    (∃ hist ∈ hists, server.Reports hist txid) ∧
      match inclusion.block with
      | some (stored, _) => server.heightOf txid = some stored
      | none =>
          ∀ height, server.heightOf txid = some height → height ≤ u32Max

omit [PersistenceBackend Backend Txid TxEntry] in
theorem resumed_new
    (server : ServerView)
    (addressStore : AddressStore)
    (txStore : TxStore Backend)
    (labels : BTreeMap OutPoint String)
    (headerScanner : Bool)
    (keyed : txStore.Keyed crate) :
    Resumed crate server
      (CoinStore.new addressStore txStore labels headerScanner)
      (CoinStore.new addressStore txStore labels headerScanner) where
  sound := ⟨keyed, fun _ listed => nomatch listed⟩
  current := by
    intro spk known found
    simp [CoinStore.new] at found
  same := fun _ => rfl
  claims := by
    rintro claim ⟨txids, found, -⟩
    simp [CoinStore.new] at found

/--
The first truthful answers of a session bring the stored transactions up to
date exactly if they were up to date before.
-/
theorem restart_thaws_iff
    (crate : TxCrate)
    (server : ServerView)
    (addressStore : AddressStore)
    (txStore : TxStore Backend)
    (labels : BTreeMap OutPoint String)
    (headerScanner : Bool)
    (keyed : txStore.Keyed crate)
    (hists : List (BTreeMap ScriptBuf History))
    (answers : ∀ hist ∈ hists, server.Answers hist) :
    Thawed server hists
        (CoinStore.new addressStore txStore labels headerScanner)
        ((CoinStore.new addressStore txStore labels headerScanner).recordAll
          crate hists) ↔
      UpToDate server hists
        (CoinStore.new addressStore txStore labels headerScanner) := by
  obtain ⟨resumed, claimed⟩ :=
    resumed_recordAll
      (resumed_new server addressStore txStore labels headerScanner keyed)
      answers
  constructor
  · intro thawed txid inclusion stored
    have reported : ∃ hist ∈ hists, server.Reports hist txid := by
      by_contra silent
      have gone :=
        thawed.removed txid
          (fun absent => by
            rw [TxStore.inclusionOf, absent] at stored
            cases stored)
          (fun hist listed reports => silent ⟨hist, listed, reports⟩)
      have kept := (resumed.same txid).trans stored
      rw [TxStore.inclusionOf, gone] at kept
      cases kept
    refine ⟨reported, ?_⟩
    -- What was confirmed is still confirmed, so it was not to be demoted.
    have confirmed
        (height : Nat)
        (blockHash : BlockHash)
        (inBlock : inclusion.block = some (height, blockHash)) :
        server.heightOf txid = some height := by
      by_contra elsewhere
      obtain ⟨unconfirmed, -⟩ :=
        thawed.demoted txid inclusion stored reported
          (.inl (by
            rw [inBlock]
            exact Ne.symm elsewhere))
      rw [resumed.same txid, stored] at unconfirmed
      cases unconfirmed
      cases inBlock
    cases inclusion with
    | unconfirmed =>
        intro height known
        obtain ⟨-, atHeight⟩ :=
          thawed.demoted txid _ stored reported
            (.inl (by
              rw [known]
              simp [Inclusion.block]))
        exact (resumed.claims _ ((atHeight height).mpr known)).2
    | confirmedUnverified height blockHash | verified height blockHash =>
        exact confirmed height blockHash rfl
    | verifyFailed height blockHash =>
        exact confirmed height blockHash rfl
  · intro upToDate
    refine ⟨?_, ?_⟩
    · intro txid present silent
      cases stored :
          (CoinStore.new addressStore txStore labels
            headerScanner).txStore.get txid with
      | none =>
          exact (present stored).elim
      | some entry =>
          obtain ⟨hist, listed, reports⟩ :=
            (upToDate txid entry.inclusion
              (by rw [TxStore.inclusionOf, stored]; rfl)).1
          exact (silent hist listed reports).elim
    · intro txid inclusion stored reported moved
      obtain ⟨-, atHeight⟩ := upToDate txid inclusion stored
      -- What is confirmed is where the server has it.
      have unmoved
          (height : Nat)
          (known : server.heightOf txid = some height) :
          ¬ (some height ≠ server.heightOf txid ∨
            server.heightOf txid = none) := by
        simp [known]
      cases inclusion with
      | unconfirmed =>
          refine ⟨(resumed.same txid).trans stored, fun height => ?_⟩
          exact ⟨fun isClaimed => (resumed.claims _ isClaimed).1,
            fun known =>
              claimed txid height stored known (atHeight height known)
                reported⟩
      | confirmedUnverified height blockHash | verified height blockHash =>
          exact (unmoved height atHeight moved).elim
      | verifyFailed height blockHash =>
          exact (unmoved height atHeight moved).elim

/-- A transaction is stored as verified at height one. -/
def verifiedAtOne : TxStore (RowBackend Txid TxEntry) :=
  ⟨RamStore.open_
    { rows :=
        (∅ : BTreeMap Txid TxEntry).insert 1
          ((TxEntry.unconfirmed .sample ⟨2, 1, [], [⟨5, 0⟩]⟩).withInclusion
            (.verified 1 100))
      faults := [] }⟩

theorem get_verifiedAtOne
    {txid : Txid}
    {entry : TxEntry}
    (stored : verifiedAtOne.get txid = some entry) :
    txid = 1 ∧
      entry =
        (TxEntry.unconfirmed .sample ⟨2, 1, [], [⟨5, 0⟩]⟩).withInclusion
          (.verified 1 100) := by
  have found :
      ((∅ : BTreeMap Txid TxEntry).insert 1
        ((TxEntry.unconfirmed .sample ⟨2, 1, [], [⟨5, 0⟩]⟩).withInclusion
          (.verified 1 100)))[txid]? =
        some entry := stored
  rw [BTreeMap.getElem?_insert_eq] at found
  split at found
  · rename_i here
    exact ⟨here.symm, (Option.some.inj found).symm⟩
  · simp at found

theorem keyed_verifiedAtOne : verifiedAtOne.Keyed TxCrate.sample := by
  intro txid entry stored
  obtain ⟨rfl, rfl⟩ := get_verifiedAtOne stored
  rfl

/-- A server that has transaction one on script zero, at the height. -/
def serverAt (height : Nat) : ServerView where
  histories spk := if spk = 0 then [1] else []
  heightOf txid := if txid = 1 then some height else none

def answerAt (height : Nat) : BTreeMap ScriptBuf History :=
  (∅ : BTreeMap ScriptBuf History).insert 0 [(1, some height)]

theorem answers_answerAt
    (height : Nat) :
    ∀ hist ∈ [answerAt height], (serverAt height).Answers hist := by
  intro hist listed spk history found
  rw [List.mem_singleton.mp listed, answerAt,
    BTreeMap.getElem?_insert_eq] at found
  split at found
  · rename_i here
    subst here
    cases found
    rfl
  · simp at found

/-- A transaction that stays where it was is up to date. -/
theorem restart_thaws_unmoved :
    Thawed (serverAt 1) [answerAt 1]
      (CoinStore.new AddressStore.sample verifiedAtOne ∅ true)
      ((CoinStore.new AddressStore.sample verifiedAtOne ∅ true).recordAll
        .sample [answerAt 1]) := by
  refine (restart_thaws_iff .sample (serverAt 1) AddressStore.sample
    verifiedAtOne ∅ true keyed_verifiedAtOne [answerAt 1]
    (answers_answerAt 1)).mpr ?_
  intro txid inclusion stored
  obtain ⟨entry, found, rfl⟩ := Option.map_eq_some_iff.mp stored
  obtain ⟨rfl, rfl⟩ := get_verifiedAtOne found
  exact ⟨⟨answerAt 1, by simp, 0, by decide +kernel, by decide⟩, rfl⟩

/-- A transaction mined again at height two stays verified at height one. -/
theorem moved_stays_verified :
    let before := CoinStore.new AddressStore.sample verifiedAtOne ∅ true
    let after := before.recordAll TxCrate.sample [answerAt 2]
    after.txStore.inclusionOf 1 = some (.verified 1 100) ∧
      ¬ Thawed (serverAt 2) [answerAt 2] before after := by
  intro before after
  have stays : after.txStore.inclusionOf 1 = some (.verified 1 100) := by
    decide +kernel
  refine ⟨stays, ?_⟩
  intro thawed
  obtain ⟨unconfirmed, -⟩ :=
    thawed.demoted 1 (.verified 1 100) (by decide +kernel)
      ⟨answerAt 2, by simp, 0, by decide +kernel, by decide⟩
      (.inl (by decide))
  rw [stays] at unconfirmed
  cases unconfirmed

end CoinStore

end Bwk
