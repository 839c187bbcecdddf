import Bwk.SpScanRules
import Bwk.SpWallet

namespace Bwk

/-!
# Rolling back what a scan recorded

A scan of some blocks is a sequence of records: outputs, spends and frontier
moves, each taken from one of the blocks.  A rollback to the block below them
deletes by height and undoes by block hash.  It is the inverse of the records
exactly where nothing they touched was known before in a form that the two
criteria cannot tell from what the blocks brought.
-/

/-- One operation of a scan on the stores. -/
inductive ScanRecord where
  | outputs (outputs : BTreeMap OutPoint OwnedOutput)
  | inputs (height : Nat) (blockHash : BlockHash) (spent : BTreeSet OutPoint)
  | frontier (height : Nat) (blockHash : BlockHash)
  | spendFrontier (height : Nat)
  | saveScanState
  | saveState

namespace ScanStores

/-- Perform one operation. -/
def record
    (times : Nat → Option Nat)
    (stores : ScanStores) : ScanRecord → ScanStores
  | .outputs outputs => stores.recordOutputs times outputs
  | .inputs height blockHash spent =>
      stores.recordInputs times blockHash height spent
  | .frontier height blockHash =>
      { stores with state := stores.state.advanceFrontier height blockHash }
  | .spendFrontier height => stores.recordSpendFrontier height
  | .saveScanState => { stores with state := stores.state.persist }
  | .saveState => stores.saveState

end ScanStores

/-- The blocks of a scan, above the frontier it starts from. -/
structure BlockSpan where
  fork : Nat
  last : Nat
  hash : Nat → BlockHash

namespace BlockSpan

variable (span : BlockSpan)

def Contains (height : Nat) : Prop :=
  span.fork < height ∧ height ≤ span.last

def hashes : List BlockHash :=
  (List.range' (span.fork + 1) (span.last - span.fork)).map span.hash

/-- An operation that records something of one of the blocks. -/
def Allows (stores : ScanStores) : ScanRecord → Prop
  | .outputs outputs =>
      ∃ height, span.Contains height ∧
        ∀ (outpoint : OutPoint) (output : OwnedOutput),
          outputs[outpoint]? = some output →
          output.blockheight = some height ∧ output.spendStatus = .unspent
  | .inputs height blockHash spent =>
      span.Contains height ∧ blockHash = span.hash height ∧
        ∀ outpoint ∈ spent, stores.coins.Watched outpoint
  | .frontier height blockHash =>
      span.Contains height ∧ blockHash = span.hash height
  | .spendFrontier _ | .saveScanState | .saveState => True

/-- The stores after a sequence of such operations. -/
inductive Recorded
    (times : Nat → Option Nat)
    (start : ScanStores) : List ScanRecord → ScanStores → Prop where
  | nil : Recorded times start [] start
  | snoc {records stores} (record : ScanRecord) :
      Recorded times start records stores →
      span.Allows stores record →
      Recorded times start (records ++ [record])
        (stores.record times record)

end BlockSpan

theorem BlockSpan.Recorded.spendFrontier
    {span : BlockSpan}
    {times : Nat → Option Nat}
    {start stores : ScanStores}
    {records : List ScanRecord}
    (recorded : span.Recorded times start records stores)
    {frontier : Nat}
    (swept : start.state.lastSpendHeight = some frontier) :
    ∃ reached, stores.state.lastSpendHeight = some reached ∧
      frontier ≤ reached := by
  induction recorded with
  | nil =>
      exact ⟨frontier, swept, Nat.le_refl _⟩
  | snoc record _ _ inductionHypothesis =>
      obtain ⟨reached, known, low⟩ := inductionHypothesis
      cases record with
      | outputs outputs =>
          exact ⟨reached, known, low⟩
      | inputs height blockHash spent | frontier height blockHash =>
          exact ⟨reached, by simpa [ScanStores.record] using known, low⟩
      | spendFrontier height =>
          refine ⟨max reached height, ?_,
            Nat.le_trans low (Nat.le_max_left _ _)⟩
          simpa [ScanStores.record, ScanStores.recordSpendFrontier] using
            ScanState.lastSpendHeight_advanceSpendFrontier _ height known
      | saveScanState =>
          exact ⟨reached, by simpa [ScanStores.record] using known, low⟩
      | saveState =>
          exact ⟨reached,
            by simpa [ScanStores.record, ScanStores.saveState] using known,
            low⟩

def RecordsOutput (records : List ScanRecord) (outpoint : OutPoint) : Prop :=
  ∃ outputs, .outputs outputs ∈ records ∧ outpoint ∈ outputs

/-- Some record confirmed this transaction, by its outputs or by its spends. -/
def Confirms
    (records : List ScanRecord)
    (coins : SpCoinStore)
    (txid : Txid) : Prop :=
  (∃ outpoint, RecordsOutput records outpoint ∧ outpoint.txid = txid) ∨
    ∃ height blockHash spent, .inputs height blockHash spent ∈ records ∧
      ∃ outpoint ∈ spent, ScanStores.SpentBy coins outpoint txid

def BlockSpan.Touched
    (span : BlockSpan)
    (before after : OutputSpendStatus) : Prop :=
  after = before ∨
    before.blockHash = none ∧
      ∃ hash ∈ span.hashes, after = before.confirmed hash

/-- What the records leave, coin by coin and transaction by transaction. -/
structure BlockSpan.Tracks
    (span : BlockSpan)
    (start : ScanStores)
    (records : List ScanRecord)
    (stores : ScanStores) : Prop where
  named : stores.txs.Named
  spenders :
    ∀ outpoint txid,
      ScanStores.SpentBy stores.coins outpoint txid ↔
        ScanStores.SpentBy start.coins outpoint txid
  found :
    ∀ outpoint, RecordsOutput records outpoint →
      ∃ entry height, stores.coins.get outpoint = some entry ∧
        entry.height = some height ∧ span.fork < height
  missing :
    ∀ outpoint, ¬ RecordsOutput records outpoint →
      start.coins.get outpoint = none → stores.coins.get outpoint = none
  kept :
    ∀ outpoint, ¬ RecordsOutput records outpoint →
      ∀ entry, start.coins.get outpoint = some entry →
        ∃ status, stores.coins.get outpoint = some (entry.withStatus status) ∧
          span.Touched entry.status status
  confirmed :
    ∀ txid, Confirms records start.coins txid →
      ∃ entry height, stores.txs.get txid = some entry ∧
        entry.height = some height ∧ span.fork < height
  untouched :
    ∀ txid, ¬ Confirms records start.coins txid →
      stores.txs.get txid = start.txs.get txid

namespace BlockSpan.Tracks

variable
    {span : BlockSpan}
    {times : Nat → Option Nat}
    {start stores : ScanStores}
    {records : List ScanRecord}

theorem nil (invariant : WalletInvariant start) :
    span.Tracks start [] start where
  named := invariant.named
  spenders _ _ := Iff.rfl
  found outpoint recorded := by
    obtain ⟨_, impossible, _⟩ := recorded
    cases impossible
  missing _ _ absent := absent
  kept outpoint _ entry stored := ⟨entry.status, stored, Or.inl rfl⟩
  confirmed txid confirms := by
    rcases confirms with ⟨_, ⟨_, impossible, _⟩, _⟩ | ⟨_, _, _, impossible, _⟩
    · cases impossible
    · cases impossible
  untouched _ _ := rfl

theorem quiet
    (tracks : span.Tracks start records stores)
    {record : ScanRecord}
    {after : ScanStores}
    (same : ScanStores.SameLookups stores after)
    (noOutputs : ∀ outputs, record ≠ .outputs outputs)
    (noInputs :
      ∀ height blockHash spent, record ≠ .inputs height blockHash spent) :
    span.Tracks start (records ++ [record]) after := by
  have sameOutputs :
      ∀ outpoint, RecordsOutput (records ++ [record]) outpoint ↔
        RecordsOutput records outpoint := by
    intro outpoint
    constructor
    · rintro ⟨outputs, member, listed⟩
      rcases List.mem_append.mp member with earlier | last
      · exact ⟨outputs, earlier, listed⟩
      · exact absurd (List.mem_singleton.mp last).symm (noOutputs outputs)
    · rintro ⟨outputs, member, listed⟩
      exact ⟨outputs, List.mem_append_left _ member, listed⟩
  have sameConfirms :
      ∀ txid, Confirms (records ++ [record]) start.coins txid ↔
        Confirms records start.coins txid := by
    intro txid
    unfold Confirms
    simp only [sameOutputs]
    refine or_congr Iff.rfl ?_
    constructor
    · rintro ⟨height, blockHash, spent, member, listed⟩
      rcases List.mem_append.mp member with earlier | last
      · exact ⟨height, blockHash, spent, earlier, listed⟩
      · exact absurd (List.mem_singleton.mp last).symm (noInputs _ _ _)
    · rintro ⟨height, blockHash, spent, member, listed⟩
      exact ⟨height, blockHash, spent, List.mem_append_left _ member, listed⟩
  exact
    { named := same.named tracks.named
      spenders := fun outpoint txid => by
        unfold ScanStores.SpentBy
        rw [← same.coins]
        exact tracks.spenders outpoint txid
      found := fun outpoint recorded => by
        rw [← same.coins]
        exact tracks.found outpoint ((sameOutputs outpoint).mp recorded)
      missing := fun outpoint recorded absent => by
        rw [← same.coins]
        exact tracks.missing outpoint
          (fun known => recorded ((sameOutputs outpoint).mpr known)) absent
      kept := fun outpoint recorded entry stored => by
        rw [← same.coins]
        exact tracks.kept outpoint
          (fun known => recorded ((sameOutputs outpoint).mpr known)) entry
          stored
      confirmed := fun txid confirms => by
        rw [← same.txs]
        exact tracks.confirmed txid ((sameConfirms txid).mp confirms)
      untouched := fun txid confirms => by
        rw [← same.txs]
        exact tracks.untouched txid
          (fun known => confirms ((sameConfirms txid).mpr known)) }

theorem outputs
    (tracks : span.Tracks start records stores)
    {outputs : BTreeMap OutPoint OwnedOutput}
    (allowed : span.Allows stores (.outputs outputs)) :
    span.Tracks start (records ++ [.outputs outputs])
      (stores.recordOutputs times outputs) := by
  obtain ⟨height, inside, own⟩ := allowed
  have recordsIff :
      ∀ outpoint, RecordsOutput (records ++ [.outputs outputs]) outpoint ↔
        RecordsOutput records outpoint ∨ outpoint ∈ outputs := by
    intro outpoint
    constructor
    · rintro ⟨others, member, listed⟩
      rcases List.mem_append.mp member with earlier | last
      · exact Or.inl ⟨others, earlier, listed⟩
      · cases List.mem_singleton.mp last
        exact Or.inr listed
    · rintro (⟨others, member, listed⟩ | listed)
      · exact ⟨others, List.mem_append_left _ member, listed⟩
      · exact ⟨outputs, by simp, listed⟩
  have confirmsIff :
      ∀ txid,
        Confirms (records ++ [.outputs outputs]) start.coins txid ↔
          Confirms records start.coins txid ∨
            ∃ outpoint ∈ outputs, outpoint.txid = txid := by
    intro txid
    unfold Confirms
    simp only [recordsIff, List.mem_append, List.mem_singleton, reduceCtorEq,
      or_false]
    grind
  have funding :
      ∀ txid, (∃ outpoint ∈ outputs, outpoint.txid = txid) ↔
        (ScanStores.fundingHeights outputs)[txid]? ≠ none := by
    intro txid
    constructor
    · rintro ⟨outpoint, member, funds⟩ absent
      obtain ⟨output, listed⟩ := BTreeMap.mem_iff_getElem?.mp member
      have unconfirmed :=
        ScanStores.no_blockheight_of_fundingHeights absent listed funds
      rw [(own outpoint output listed).1] at unconfirmed
      cases unconfirmed
    · intro present
      obtain ⟨height, found⟩ := Option.ne_none_iff_exists'.mp present
      obtain ⟨outpoint, output, listed, funds, _⟩ :=
        ScanStores.blockheight_of_fundingHeights found
      exact ⟨outpoint, BTreeMap.mem_iff_getElem?.mpr ⟨output, listed⟩, funds⟩
  exact
    { named := ScanStores.named_recordOutputs times outputs tracks.named
      spenders := fun outpoint txid => by
        rw [ScanStores.spentBy_recordOutputs times
          (fun outpoint output listed => (own outpoint output listed).2)]
        exact tracks.spenders outpoint txid
      found := fun outpoint recorded => by
        rw [ScanStores.get_coins_recordOutputs]
        cases listed : outputs[outpoint]? with
        | some output =>
            refine ⟨_, height, rfl, ?_, inside.1⟩
            simp [SpCoinEntry.height, (own outpoint output listed).1]
        | none =>
            rcases (recordsIff outpoint).mp recorded with earlier | member
            · exact tracks.found outpoint earlier
            · exact absurd listed (fun absent =>
                BTreeMap.not_mem_iff_getElem?.mpr absent member)
      missing := fun outpoint recorded absent => by
        rw [recordsIff, not_or] at recorded
        rw [ScanStores.get_coins_recordOutputs,
          BTreeMap.not_mem_iff_getElem?.mp recorded.2]
        exact tracks.missing outpoint recorded.1 absent
      kept := fun outpoint recorded entry stored => by
        rw [recordsIff, not_or] at recorded
        rw [ScanStores.get_coins_recordOutputs,
          BTreeMap.not_mem_iff_getElem?.mp recorded.2]
        exact tracks.kept outpoint recorded.1 entry stored
      confirmed := fun txid confirms => by
        rw [ScanStores.get_txs_recordOutputs]
        cases found : (ScanStores.fundingHeights outputs)[txid]? with
        | some funded =>
            obtain ⟨outpoint, output, listed, _, mined⟩ :=
              ScanStores.blockheight_of_fundingHeights found
            have same := (own outpoint output listed).1.symm.trans mined
            cases same
            refine ⟨_, height, rfl, ?_, inside.1⟩
            simp
        | none =>
            rcases (confirmsIff txid).mp confirms with earlier | funds
            · exact tracks.confirmed txid earlier
            · exact absurd found ((funding txid).mp funds)
      untouched := fun txid confirms => by
        rw [confirmsIff, not_or, funding, not_not] at confirms
        rw [ScanStores.get_txs_recordOutputs, confirms.2]
        exact tracks.untouched txid confirms.1 }

theorem touched_confirmed
    {before after : OutputSpendStatus}
    (touched : span.Touched before after)
    (open_ : after.blockHash = none)
    {hash : BlockHash}
    (listed : hash ∈ span.hashes) :
    span.Touched before (after.confirmed hash) := by
  rcases touched with rfl | ⟨_, earlier, _, rfl⟩
  · exact Or.inr ⟨open_, hash, listed, rfl⟩
  · cases before <;> cases open_

theorem hash_mem_hashes
    {height : Nat}
    (inside : span.Contains height) :
    span.hash height ∈ span.hashes := by
  refine List.mem_map.mpr ⟨height, ?_, rfl⟩
  rw [List.mem_range'_1]
  obtain ⟨low, high⟩ := inside
  omega

theorem inputs
    (tracks : span.Tracks start records stores)
    (invariant : WalletInvariant start)
    {height : Nat}
    {blockHash : BlockHash}
    {spent : BTreeSet OutPoint}
    (allowed : span.Allows stores (.inputs height blockHash spent)) :
    span.Tracks start (records ++ [.inputs height blockHash spent])
      (stores.recordInputs times blockHash height spent) := by
  classical
  obtain ⟨inside, rfl, watched⟩ := allowed
  have recordsIff :
      ∀ outpoint,
        RecordsOutput
            (records ++ [.inputs height (span.hash height) spent])
            outpoint ↔
          RecordsOutput records outpoint := by
    intro outpoint
    unfold RecordsOutput
    simp only [List.mem_append, List.mem_singleton, reduceCtorEq, or_false]
  have confirmsIff :
      ∀ txid,
        Confirms (records ++ [.inputs height (span.hash height) spent])
            start.coins txid ↔
          Confirms records start.coins txid ∨
            ∃ outpoint ∈ spent,
              ScanStores.SpentBy start.coins outpoint txid := by
    intro txid
    unfold Confirms
    simp only [recordsIff, List.mem_append, List.mem_singleton,
      ScanRecord.inputs.injEq]
    grind
  have spendersIff :
      ∀ txid,
        (∃ outpoint ∈ spent,
            ScanStores.SpentBy stores.coins outpoint txid) ↔
          ∃ outpoint ∈ spent,
            ScanStores.SpentBy start.coins outpoint txid := by
    intro txid
    simp only [tracks.spenders]
  exact
    { named := ScanStores.named_recordInputs times _ height spent tracks.named
      spenders := fun outpoint txid => by
        rw [ScanStores.spentBy_recordInputs]
        exact tracks.spenders outpoint txid
      found := fun outpoint recorded => by
        obtain ⟨entry, found, stored, above, low⟩ :=
          tracks.found outpoint ((recordsIff outpoint).mp recorded)
        rw [ScanStores.get_coins_recordInputs, stored]
        split
        · exact ⟨_, found, rfl, above, low⟩
        · exact ⟨_, found, rfl, above, low⟩
      missing := fun outpoint recorded absent => by
        rw [recordsIff] at recorded
        rw [ScanStores.get_coins_recordInputs,
          tracks.missing outpoint recorded absent]
        split <;> rfl
      kept := fun outpoint recorded entry stored => by
        rw [recordsIff] at recorded
        obtain ⟨status, now, touched⟩ :=
          tracks.kept outpoint recorded entry stored
        rw [ScanStores.get_coins_recordInputs, now]
        split
        · next member =>
            obtain ⟨watching, known, open_⟩ := watched outpoint member
            rw [now] at known
            cases known
            exact ⟨_, rfl,
              touched_confirmed touched open_ (hash_mem_hashes inside)⟩
        · exact ⟨status, rfl, touched⟩
      confirmed := fun txid confirms => by
        rw [ScanStores.get_txs_recordInputs]
        split
        · next spends =>
            have stored : stores.txs.get txid ≠ none := by
              by_cases earlier : Confirms records start.coins txid
              · obtain ⟨entry, _, found, _⟩ := tracks.confirmed txid earlier
                rw [found]
                exact Option.some_ne_none _
              · obtain ⟨outpoint, _, by_⟩ := (spendersIff txid).mp spends
                rw [tracks.untouched txid earlier]
                exact invariant.spenders outpoint txid by_
            obtain ⟨entry, found⟩ := Option.ne_none_iff_exists'.mp stored
            rw [found]
            exact ⟨_, height, rfl, by simp, inside.1⟩
        · next quiet =>
            rcases (confirmsIff txid).mp confirms with earlier | spends
            · exact tracks.confirmed txid earlier
            · exact absurd ((spendersIff txid).mpr spends) quiet
      untouched := fun txid confirms => by
        rw [confirmsIff, not_or, ← spendersIff] at confirms
        rw [ScanStores.get_txs_recordInputs, if_neg confirms.2]
        exact tracks.untouched txid confirms.1 }

end BlockSpan.Tracks

theorem BlockSpan.Recorded.tracks
    {span : BlockSpan}
    {times : Nat → Option Nat}
    {start stores : ScanStores}
    {records : List ScanRecord}
    (recorded : span.Recorded times start records stores)
    (invariant : WalletInvariant start) :
    span.Tracks start records stores := by
  induction recorded with
  | nil =>
      exact BlockSpan.Tracks.nil invariant
  | snoc record _ allowed inductionHypothesis =>
      cases record with
      | outputs outputs =>
          exact inductionHypothesis.outputs allowed
      | inputs height blockHash spent =>
          exact inductionHypothesis.inputs invariant allowed
      | frontier height blockHash | spendFrontier height | saveScanState =>
          exact inductionHypothesis.quiet ⟨fun _ => rfl, fun _ => rfl⟩
            (by simp) (by simp)
      | saveState =>
          exact inductionHypothesis.quiet
            ⟨fun _ => by simp [ScanStores.record, ScanStores.saveState],
              fun _ => by simp [ScanStores.record, ScanStores.saveState]⟩
            (by simp) (by simp)

/-- Two stores hold the same coins and transactions, as far as blocks decide
them, and stand at the same frontiers. -/
structure SameWallet (before after : ScanStores) : Prop where
  coins :
    ∀ outpoint,
      (after.coins.get outpoint).map
          (fun entry => (entry.height, entry.status)) =
        (before.coins.get outpoint).map
          (fun entry => (entry.height, entry.status))
  txs :
    ∀ txid,
      (after.txs.get txid).map
          (fun entry => (entry.height, entry.timestamp)) =
        (before.txs.get txid).map
          (fun entry => (entry.height, entry.timestamp))
  lastScanned :
    after.state.lastScannedHeight = before.state.lastScannedHeight
  lastSpend : after.state.lastSpendHeight = before.state.lastSpendHeight

/-- Nothing the blocks recorded was known in a form a rollback mistakes. -/
structure BlockSpan.Undoable
    (span : BlockSpan)
    (start : ScanStores)
    (records : List ScanRecord) : Prop where
  /-- The wallet holds no coin above the fork. -/
  coinsBelow :
    ∀ outpoint entry, start.coins.get outpoint = some entry →
      entry.height.all (fun height => height ≤ span.fork) = true
  /-- The wallet holds no transaction above the fork. -/
  txsBelow :
    ∀ txid entry, start.txs.get txid = some entry →
      entry.height.all (fun height => height ≤ span.fork) = true
  /-- No output of the blocks was held already. -/
  fresh :
    ∀ outpoint, RecordsOutput records outpoint →
      start.coins.get outpoint = none
  /-- A known transaction the blocks confirm is an unconfirmed spend. -/
  pending :
    ∀ txid entry, Confirms records start.coins txid →
      start.txs.get txid = some entry →
      entry.height = none ∧
        ∃ outpoint, ScanStores.SpentBy start.coins outpoint txid
  /-- No coin was marked as spent in one of the blocks already. -/
  unmarked :
    ∀ outpoint entry hash, start.coins.get outpoint = some entry →
      entry.status.blockHash = some hash → hash ∉ span.hashes

theorem BlockSpan.Touched.undone
    {span : BlockSpan}
    {before after : OutputSpendStatus}
    (touched : span.Touched before after)
    (unmarked : ∀ hash, before.blockHash = some hash → hash ∉ span.hashes) :
    after.undone span.hashes = before := by
  rcases touched with rfl | ⟨open_, hash, listed, rfl⟩
  · cases after with
    | unspent =>
        rfl
    | spent txid hash =>
        cases hash with
        | none =>
            rfl
        | some hash =>
            simp [OutputSpendStatus.undone, unmarked hash rfl]
    | mined hash =>
        simp [OutputSpendStatus.undone, unmarked hash rfl]
  · cases before with
    | unspent =>
        simp [OutputSpendStatus.confirmed, OutputSpendStatus.undone, listed]
    | spent txid earlier =>
        cases open_
        simp [OutputSpendStatus.confirmed, OutputSpendStatus.undone, listed]
    | mined earlier =>
        cases open_

theorem OutputSpendStatus.blockHash_undone_ne
    (reorged : List BlockHash)
    (status : OutputSpendStatus)
    {hash : BlockHash}
    (listed : hash ∈ reorged) :
    (status.undone reorged).blockHash ≠ some hash := by
  cases status with
  | unspent =>
      simp [undone, blockHash]
  | spent txid earlier =>
      cases earlier with
      | none =>
          simp [undone, blockHash]
      | some earlier =>
          simp only [undone]
          split
          · simp [blockHash]
          · next unlisted =>
              simp only [blockHash, ne_eq, Option.some.injEq]
              rintro rfl
              exact unlisted listed
  | mined earlier =>
      simp only [undone]
      split
      · simp [blockHash]
      · next unlisted =>
          simp only [blockHash, ne_eq, Option.some.injEq]
          rintro rfl
          exact unlisted listed

namespace BlockSpan.Tracks

variable
    {span : BlockSpan}
    {start stores : ScanStores}
    {records : List ScanRecord}
    (tracks : span.Tracks start records stores)

include tracks

variable {outpoint : OutPoint} {txid : Txid}

theorem recorded_removed
    (recorded : RecordsOutput records outpoint) :
    (stores.rollBack span.fork span.hashes).coins.get outpoint = none := by
  obtain ⟨entry, height, stored, confirmed, above⟩ :=
    tracks.found outpoint recorded
  rw [ScanStores.get_coins_rollBack, stored, Option.bind_some,
    SpCoinStore.rolledBack, confirmed]
  simp [above]

theorem unrecorded_kept
    (unrecorded : ¬ RecordsOutput records outpoint)
    {entry : SpCoinEntry}
    (stored : start.coins.get outpoint = some entry) :
    ∃ status, span.Touched entry.status status ∧
      (stores.rollBack span.fork span.hashes).coins.get outpoint =
        if entry.height.any (fun height => height > span.fork) then
          none
        else
          some (entry.withStatus (status.undone span.hashes)) := by
  obtain ⟨status, now, touched⟩ :=
    tracks.kept outpoint unrecorded entry stored
  refine ⟨status, touched, ?_⟩
  rw [ScanStores.get_coins_rollBack, now]
  rfl

theorem coins_restored
    (undoable : span.Undoable start records)
    (outpoint : OutPoint) :
    (stores.rollBack span.fork span.hashes).coins.get outpoint =
      start.coins.get outpoint := by
  by_cases recorded : RecordsOutput records outpoint
  · rw [tracks.recorded_removed recorded, undoable.fresh outpoint recorded]
  · cases stored : start.coins.get outpoint with
    | none =>
        have absent := tracks.missing outpoint recorded stored
        rw [ScanStores.get_coins_rollBack, absent]
        rfl
    | some entry =>
        obtain ⟨status, touched, left⟩ :=
          tracks.unrecorded_kept recorded stored
        have below := undoable.coinsBelow outpoint entry stored
        have notAbove :
            ¬ entry.height.any (fun height => height > span.fork) = true := by
          cases known : entry.height with
          | none =>
              simp
          | some height =>
              rw [known] at below
              simpa using below
        rw [left, if_neg notAbove,
          touched.undone (fun hash =>
            undoable.unmarked outpoint entry hash stored)]
        rfl

theorem confirmed_rolledBack
    (confirms : Confirms records start.coins txid) :
    ∃ entry, stores.txs.get txid = some entry ∧
      (stores.rollBack span.fork span.hashes).txs.get txid =
        if
            txid ∈
              (stores.rollBack span.fork span.hashes).coins.spendingTxids then
          some { entry with height := none, timestamp := none }
        else
          none := by
  obtain ⟨entry, height, stored, confirmed, above⟩ :=
    tracks.confirmed txid confirms
  refine ⟨entry, stored, ?_⟩
  have notBelow :
      ¬ entry.height.all (fun height => height ≤ span.fork) = true := by
    rw [confirmed]
    simp [above]
  rw [ScanStores.get_txs_rollBack _ _ _ tracks.named, stored,
    Option.bind_some, if_neg notBelow]

theorem spentBy_of_pending
    (pending :
      txid ∈
        (stores.rollBack span.fork span.hashes).coins.spendingTxids) :
    ∃ outpoint, ScanStores.SpentBy start.coins outpoint txid := by
  obtain ⟨outpoint, spent⟩ :=
    (ScanStores.mem_spendingTxids_iff _ _).mp pending
  exact ⟨outpoint, (tracks.spenders outpoint txid).mp
    (ScanStores.spentBy_of_rollBack _ _ _ spent)⟩

theorem sameWallet
    (invariant : WalletInvariant start)
    (undoable : span.Undoable start records)
    (scanned : start.state.lastScannedHeight = some span.fork)
    (swept : start.state.lastSpendHeight = some span.fork)
    (ahead :
      ∃ reached, stores.state.lastSpendHeight = some reached ∧
        span.fork ≤ reached) :
    SameWallet start (stores.rollBack span.fork span.hashes) where
  coins outpoint := by
    rw [tracks.coins_restored undoable]
  txs txid := by
    by_cases confirms : Confirms records start.coins txid
    · obtain ⟨entry, _, left⟩ := tracks.confirmed_rolledBack confirms
      cases stored : start.txs.get txid with
      | none =>
          have gone :
              txid ∉
                (stores.rollBack span.fork
                  span.hashes).coins.spendingTxids := by
            intro pending
            obtain ⟨outpoint, spent⟩ := tracks.spentBy_of_pending pending
            exact invariant.spenders outpoint txid spent stored
          rw [left, if_neg gone]
      | some before =>
          obtain ⟨unconfirmed, outpoint, spent⟩ :=
            undoable.pending txid before confirms stored
          have pending :
              txid ∈
                (stores.rollBack span.fork
                  span.hashes).coins.spendingTxids := by
            rw [ScanStores.mem_spendingTxids_iff]
            refine ⟨outpoint, ?_⟩
            unfold ScanStores.SpentBy at spent ⊢
            rw [tracks.coins_restored undoable]
            exact spent
          have unstamped := invariant.unstamped txid before stored unconfirmed
          rw [left, if_pos pending, Option.map_some, Option.map_some,
            unconfirmed, unstamped]
    · rw [ScanStores.get_txs_rollBack _ _ _ tracks.named,
        tracks.untouched txid confirms]
      cases stored : start.txs.get txid with
      | none =>
          rfl
      | some before =>
          rw [Option.bind_some,
            if_pos (undoable.txsBelow txid before stored)]
  lastScanned := by
    rw [ScanStores.lastScannedHeight_rollBack, scanned]
  lastSpend := by
    obtain ⟨reached, known, low⟩ := ahead
    rw [ScanStores.lastSpendHeight_rollBack, known, swept, Option.map_some,
      Nat.min_eq_right low]

theorem undoable_of_sameWallet
    (same : SameWallet start (stores.rollBack span.fork span.hashes)) :
    span.Undoable start records := by
  have fresh :
      ∀ outpoint, RecordsOutput records outpoint →
        start.coins.get outpoint = none := by
    intro outpoint recorded
    have agree := same.coins outpoint
    rw [tracks.recorded_removed recorded] at agree
    cases stored : start.coins.get outpoint with
    | none =>
        rfl
    | some entry =>
        rw [stored] at agree
        cases agree
  have unrecorded :
      ∀ {outpoint entry}, start.coins.get outpoint = some entry →
        ¬ RecordsOutput records outpoint := by
    intro outpoint entry stored recorded
    rw [fresh outpoint recorded] at stored
    cases stored
  have kept :
      ∀ {outpoint entry}, start.coins.get outpoint = some entry →
        ¬ entry.height.any (fun height => height > span.fork) = true ∧
          ∃ status : OutputSpendStatus,
            status.undone span.hashes = entry.status := by
    intro outpoint entry stored
    obtain ⟨status, _, left⟩ :=
      tracks.unrecorded_kept (unrecorded stored) stored
    have agree := same.coins outpoint
    rw [left, stored] at agree
    split at agree
    · cases agree
    · next below =>
        refine ⟨below, status, ?_⟩
        simp only [Option.map_some, Option.some.injEq, Prod.mk.injEq,
          SpCoinEntry.status_withStatus] at agree
        exact agree.2
  have untouchedBelow :
      ∀ {txid entry}, start.txs.get txid = some entry →
        (Confirms records start.coins txid →
          entry.height = none ∧
            txid ∈
              (stores.rollBack span.fork
                span.hashes).coins.spendingTxids) ∧
        entry.height.all (fun height => height ≤ span.fork) = true := by
    intro txid entry stored
    have agree := same.txs txid
    rw [stored] at agree
    by_cases confirms : Confirms records start.coins txid
    · obtain ⟨now, _, left⟩ := tracks.confirmed_rolledBack confirms
      rw [left] at agree
      split at agree
      · next pending =>
          simp only [Option.map_some, Option.some.injEq,
            Prod.mk.injEq] at agree
          refine ⟨fun _ => ⟨agree.1.symm, pending⟩, ?_⟩
          rw [← agree.1]
          rfl
      · cases agree
    · refine ⟨fun known => absurd known confirms, ?_⟩
      rw [ScanStores.get_txs_rollBack _ _ _ tracks.named,
        tracks.untouched txid confirms, stored, Option.bind_some] at agree
      split at agree
      · assumption
      · split at agree
        · simp only [Option.map_some, Option.some.injEq,
            Prod.mk.injEq] at agree
          rw [← agree.1]
          rfl
        · cases agree
  exact
    { coinsBelow := fun outpoint entry stored => by
        have below := (kept stored).1
        cases known : entry.height with
        | none =>
            rfl
        | some height =>
            rw [known] at below
            simpa using below
      txsBelow := fun txid entry stored => (untouchedBelow stored).2
      fresh := fresh
      pending := fun txid entry confirms stored => by
        obtain ⟨unconfirmed, pending⟩ := (untouchedBelow stored).1 confirms
        exact ⟨unconfirmed, tracks.spentBy_of_pending pending⟩
      unmarked := fun outpoint entry hash stored marked listed => by
        obtain ⟨_, status, undone⟩ := kept stored
        rw [← undone] at marked
        exact OutputSpendStatus.blockHash_undone_ne span.hashes status listed
          marked }

end BlockSpan.Tracks

/--
Rolling back to the fork gives back the wallet a scan started from exactly when
the wallet held nothing above the fork and nothing the blocks recorded was
known before, an unconfirmed spend of a held coin apart.
-/
theorem rollBack_restores_iff
    (span : BlockSpan)
    (times : Nat → Option Nat)
    (start stores : ScanStores)
    (records : List ScanRecord)
    (reachable : SpReachable start)
    (scanned : start.state.lastScannedHeight = some span.fork)
    (swept : start.state.lastSpendHeight = some span.fork)
    (recorded : span.Recorded times start records stores) :
    SameWallet start (stores.rollBack span.fork span.hashes) ↔
      span.Undoable start records := by
  have invariant := reachable.invariant
  have tracks := recorded.tracks invariant
  exact ⟨tracks.undoable_of_sameWallet,
    fun undoable => tracks.sameWallet invariant undoable scanned swept
      (recorded.spendFrontier swept)⟩

def sampleOwned (height : Option Nat) (amount : Nat) : OwnedOutput where
  blockheight := height
  tweak := 1
  amount := amount
  script := 7
  label := none
  spendStatus := .unspent

def sampleOutputs
    (outpoint : OutPoint)
    (height : Option Nat)
    (amount : Nat) : BTreeMap OutPoint OwnedOutput :=
  Std.ExtTreeMap.insert ∅ outpoint (sampleOwned height amount)

def sampleFresh : ScanStores where
  coins := SpCoinStore.withBackend ⟨∅, []⟩
  txs := SpTxStore.withBackend ⟨∅, []⟩
  state := ScanState.withBackend 90 ⟨∅, []⟩ ⟨none, none, none, []⟩

/-- The wallet once it has scanned up to 100 and found one coin. -/
def sampleScanned : ScanStores where
  coins :=
    (sampleFresh.recordOutputs (fun _ => none)
      (sampleOutputs ⟨1, 0⟩ (some 100) 50)).coins
  txs :=
    (sampleFresh.recordOutputs (fun _ => none)
      (sampleOutputs ⟨1, 0⟩ (some 100) 50)).txs
  state :=
    { sampleFresh.state with
      lastScannedHeight := some 100
      lastSpendHeight := some 100 }

theorem sampleScanned_reachable : SpReachable sampleScanned := by
  refine SpReachable.scanState _
    (SpReachable.outputs (fun _ => none)
      (sampleOutputs ⟨1, 0⟩ (some 100) 50) (SpReachable.fresh _ _ _) ?_)
  intro outpoint output listed
  rw [sampleOutputs, BTreeMap.getElem?_insert_eq] at listed
  split at listed
  · cases listed
    rfl
  · simp at listed

/-- The block above the frontier of the sample wallet. -/
def sampleSpan : BlockSpan where
  fork := 100
  last := 101
  hash height := height + 1000

/-- The wallet once it has broadcast a spend of its coin, with change. -/
def samplePending : ScanStores :=
  sampleScanned.applyUnconfirmedSpend TxCrate.sample
    (ScanStores.sampleSpend ⟨1, 0⟩)
    { spInputs := [⟨1, 0⟩]
      subAccounts := ∅
      spOutputs := sampleOutputs ⟨9, 0⟩ none 40 }

theorem samplePending_reachable : SpReachable samplePending := by
  refine SpReachable.broadcast _ _ _ sampleScanned_reachable ?_
  intro outpoint output listed
  rw [sampleOutputs, BTreeMap.getElem?_insert_eq] at listed
  split at listed
  · cases listed
    rfl
  · simp at listed

/-- The record of one output found in the block above the frontier. -/
def sampleFound (outpoint : OutPoint) : ScanRecord :=
  .outputs (sampleOutputs outpoint (some 101) 40)

theorem sampleSpan_allows (stores : ScanStores) (outpoint : OutPoint) :
    sampleSpan.Allows stores (sampleFound outpoint) := by
  refine ⟨101, ⟨by decide, by decide⟩, ?_⟩
  intro query output listed
  rw [sampleOutputs, BTreeMap.getElem?_insert_eq] at listed
  split at listed
  · cases listed
    exact ⟨rfl, rfl⟩
  · simp at listed

theorem get_coins_sampleScanned (query : OutPoint) :
    sampleScanned.coins.get query =
      if (⟨1, 0⟩ : OutPoint) = query then
        some ⟨query, sampleOwned (some 100) 50⟩
      else
        none := by
  have noCoin : ∀ outpoint, sampleFresh.coins.get outpoint = none :=
    fun _ => Std.ExtTreeMap.getElem?_empty
  rw [sampleScanned, ScanStores.get_coins_recordOutputs, sampleOutputs,
    BTreeMap.getElem?_insert_eq, noCoin]
  by_cases same : (⟨1, 0⟩ : OutPoint) = query
  · rw [if_pos same, if_pos same]
    rfl
  · simp [same]

theorem get_txs_sampleScanned (query : Txid) :
    sampleScanned.txs.get query =
      if 1 = query then
        some { SpTxEntry.new query with height := some 100 }
      else
        none := by
  have noTx : ∀ txid, sampleFresh.txs.get txid = none :=
    fun _ => Std.ExtTreeMap.getElem?_empty
  have heights :
      ScanStores.fundingHeights (sampleOutputs ⟨1, 0⟩ (some 100) 50) =
        Std.ExtTreeMap.insert ∅ 1 100 :=
    rfl
  rw [sampleScanned, ScanStores.get_txs_recordOutputs, heights,
    BTreeMap.getElem?_insert_eq, noTx]
  by_cases same : 1 = query
  · rw [if_pos same, if_pos same]
    rfl
  · simp [same]

/-- A payment nobody announced is undone by the rollback. -/
theorem rollBack_restores_unannounced :
    SameWallet sampleScanned
      ((sampleScanned.record (fun _ => none) (sampleFound ⟨5, 0⟩)).rollBack
        100 sampleSpan.hashes) := by
  refine (rollBack_restores_iff sampleSpan (fun _ => none) sampleScanned _
    ([] ++ [sampleFound ⟨5, 0⟩]) sampleScanned_reachable rfl rfl
    (.snoc _ .nil (sampleSpan_allows _ _))).mpr ?_
  have recordsOnly :
      ∀ outpoint, RecordsOutput ([] ++ [sampleFound ⟨5, 0⟩]) outpoint →
        outpoint = ⟨5, 0⟩ := by
    rintro outpoint ⟨outputs, member, listed⟩
    cases List.mem_singleton.mp member
    rw [sampleOutputs, Std.ExtTreeMap.mem_insert,
      Std.compare_eq_iff_eq] at listed
    rcases listed with same | impossible
    · exact same.symm
    · simp at impossible
  have confirmsOnly :
      ∀ txid, Confirms ([] ++ [sampleFound ⟨5, 0⟩]) sampleScanned.coins txid →
        txid = 5 := by
    rintro txid (⟨outpoint, recorded, rfl⟩ | ⟨_, _, _, member, _⟩)
    · rw [recordsOnly outpoint recorded]
    · cases List.mem_singleton.mp member
  exact
    { coinsBelow := fun outpoint entry stored => by
        rw [get_coins_sampleScanned] at stored
        split at stored
        · cases stored
          rfl
        · cases stored
      txsBelow := fun txid entry stored => by
        rw [get_txs_sampleScanned] at stored
        split at stored
        · cases stored
          rfl
        · cases stored
      fresh := fun outpoint recorded => by
        rw [recordsOnly outpoint recorded, get_coins_sampleScanned]
        rfl
      pending := fun txid entry confirms stored => by
        rw [confirmsOnly txid confirms, get_txs_sampleScanned] at stored
        cases stored
      unmarked := fun outpoint entry hash stored marked => by
        rw [get_coins_sampleScanned] at stored
        split at stored
        · cases stored
          cases marked
        · cases stored }

/--
The change of our own broadcast, confirmed above the fork: the rollback drops
the coin that was held unconfirmed before the block came.
-/
theorem rollBack_drops_unconfirmed_change :
    SpReachable samplePending ∧
      samplePending.state.lastScannedHeight = some 100 ∧
      samplePending.state.lastSpendHeight = some 100 ∧
      sampleSpan.Recorded (fun _ => none) samplePending
        ([] ++ [sampleFound ⟨9, 0⟩])
        (samplePending.record (fun _ => none) (sampleFound ⟨9, 0⟩)) ∧
      ¬ SameWallet samplePending
        ((samplePending.record (fun _ => none) (sampleFound ⟨9, 0⟩)).rollBack
          100 sampleSpan.hashes) := by
  refine ⟨samplePending_reachable, rfl, rfl,
    .snoc _ .nil (sampleSpan_allows _ _), ?_⟩
  intro same
  have before :
      (samplePending.coins.get ⟨9, 0⟩).map
        (fun entry => (entry.height, entry.status)) =
        some (none, .unspent) := by
    decide +kernel
  have after :
      (((samplePending.record (fun _ => none) (sampleFound ⟨9, 0⟩)).rollBack
        100 sampleSpan.hashes).coins.get ⟨9, 0⟩).map
        (fun entry => (entry.height, entry.status)) = none := by
    decide +kernel
  have agree := same.coins ⟨9, 0⟩
  rw [before, after] at agree
  cases agree

end Bwk
