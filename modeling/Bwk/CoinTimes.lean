import Bwk.ReconcilerSafety

namespace Bwk

/-!
# Confirmation times

A confirmation time is read from the header the chain has at the height of the
transaction, while the block of the transaction was read at another moment.
The time belongs to the block as long as no step mixes two chains: no stamp
reads a replaced header, and no second look moves a stamped transaction.
-/

variable {Backend HeaderRows Raw : Type}

/-- The block an inclusion names, whatever became of its proof. -/
def Inclusion.block : Inclusion → Option (Nat × BlockHash)
  | .unconfirmed => none
  | .confirmedUnverified height blockHash
  | .verified height blockHash
  | .verifyFailed height blockHash => some (height, blockHash)

def OfBlock
    (btc : Bitcoin Raw)
    (blockHash : BlockHash)
    (time : Nat) : Prop :=
  ∃ header, btc.blockHash header = blockHash ∧ header.time = time

/-- A confirmation time of the entry belongs to its block. -/
def TxEntry.Timed (btc : Bitcoin Raw) (entry : TxEntry) : Prop :=
  ∀ time, entry.timestamp = some time →
    ∃ height blockHash,
      entry.inclusion.block = some (height, blockHash) ∧
      OfBlock btc blockHash time

/-- Every confirmation time belongs to the block of its transaction. -/
def CoinStore.Timed
    (btc : Bitcoin Raw)
    (coins : CoinStore Backend) : Prop :=
  ∀ txid entry, coins.txStore.get txid = some entry → entry.Timed btc

def TxEntry.movedTo (entry : TxEntry) : Option (Nat × BlockHash) → TxEntry
  | some (height, blockHash) =>
      entry.withInclusion (.confirmedUnverified height blockHash)
  | none => entry

namespace CoinStore

variable {btc : Bitcoin Raw} {headers : HeaderStore HeaderRows Raw}
variable {coins : CoinStore Backend}

/-- The block a second look moves a transaction to, if it does. -/
def reopened
    (btc : Bitcoin Raw)
    (headers : HeaderStore HeaderRows Raw)
    (flying : Finset ClaimAt)
    (txid : Txid) : Inclusion → Option (Nat × BlockHash)
  | .unconfirmed => none
  | .confirmedUnverified height blockHash =>
      match headers.blockHash btc height with
      | some current =>
          if ⟨txid, height⟩ ∈ flying ∨ current = blockHash then none
          else some (height, current)
      | none => none
  | .verified height blockHash | .verifyFailed height blockHash =>
      match headers.blockHash btc height with
      | some current =>
          if current = blockHash then none else some (height, current)
      | none => none

variable (pass : ChainPass Backend)

theorem reverifyEntry_reopened
    (txid : Txid)
    (inclusion : Inclusion) :
    (reopened btc headers pass.coins.merkleInFlight txid inclusion = none ∧
        (reverifyEntry btc headers pass (txid, inclusion)).coins.txStore =
          pass.coins.txStore) ∨
      ∃ height current,
        reopened btc headers pass.coins.merkleInFlight txid inclusion =
            some (height, current) ∧
          reverifyEntry btc headers pass (txid, inclusion) =
            pass.stamp ⟨txid, height⟩ current := by
  cases inclusion with
  | unconfirmed =>
      exact .inl ⟨rfl, rfl⟩
  | confirmedUnverified height blockHash =>
      cases known : headers.blockHash btc height with
      | none =>
          exact .inl (by simp [reopened, reverifyEntry, known])
      | some current =>
          by_cases flying :
              (⟨txid, height⟩ : ClaimAt) ∈ pass.coins.merkleInFlight
          · exact .inl (by simp [reopened, reverifyEntry, known, flying])
          · by_cases same : current = blockHash
            · exact .inl (by
                simp [reopened, reverifyEntry, known, flying, same,
                  ChainPass.requeue])
            · exact .inr ⟨height, current, by
                simp [reopened, reverifyEntry, known, flying, same]⟩
  | verified height blockHash | verifyFailed height blockHash =>
      cases known : headers.blockHash btc height with
      | none =>
          exact .inl (by simp [reopened, reverifyEntry, known])
      | some current =>
          by_cases same : current = blockHash
          · exact .inl (by simp [reopened, reverifyEntry, known, same])
          · exact .inr ⟨height, current, by
              simp [reopened, reverifyEntry, known, same]⟩

theorem get_reverifyEntry
    (name : Txid)
    (inclusion : Inclusion)
    (txid : Txid) :
    (reverifyEntry btc headers pass (name, inclusion)).coins.txStore.get
        txid =
      if name = txid then
        (pass.coins.txStore.get txid).map (fun entry =>
          entry.movedTo
            (reopened btc headers pass.coins.merkleInFlight name inclusion))
      else
        pass.coins.txStore.get txid := by
  rcases reverifyEntry_reopened pass name inclusion with
    ⟨unmoved, same⟩ | ⟨height, current, moved, stamped⟩
  · rw [unmoved, same]
    split
    · exact (Option.map_id_apply ..).symm
    · rfl
  · rw [moved, stamped]
    exact TxStore.get_updateInclusion ..

theorem merkleInFlight_reverifyEntry
    (entry : Txid × Inclusion)
    (claim : ClaimAt)
    (other : claim.txid ≠ entry.1) :
    claim ∈ (reverifyEntry btc headers pass entry).coins.merkleInFlight ↔
      claim ∈ pass.coins.merkleInFlight := by
  have apart (height : Nat) : claim ≠ ⟨entry.1, height⟩ := by
    rintro rfl
    exact other rfl
  rcases reverifyEntry_cases btc headers pass entry with
    same | ⟨height, blockHash, -, -, requeued⟩ |
      ⟨height, blockHash, current, -, -, -, stamped⟩
  · rw [same]
  · rw [requeued]
    simp [ChainPass.requeue, apart height]
  · rw [stamped]
    simp [ChainPass.stamp, apart height]

theorem reopened_congr
    {flying others : Finset ClaimAt}
    {txid : Txid}
    (same :
      ∀ height, (⟨txid, height⟩ : ClaimAt) ∈ flying ↔
        (⟨txid, height⟩ : ClaimAt) ∈ others)
    (inclusion : Inclusion) :
    reopened btc headers flying txid inclusion =
      reopened btc headers others txid inclusion := by
  cases inclusion <;> simp only [reopened, same]

theorem get_reverifyEntries
    {entries : List (Txid × Inclusion)}
    (distinct : (entries.map Prod.fst).Nodup)
    (pass : ChainPass Backend)
    (txid : Txid) :
    (txid ∉ entries.map Prod.fst →
      (entries.foldl (reverifyEntry btc headers) pass).coins.txStore.get
          txid =
        pass.coins.txStore.get txid) ∧
    ∀ inclusion, (txid, inclusion) ∈ entries →
      (entries.foldl (reverifyEntry btc headers) pass).coins.txStore.get
          txid =
        (pass.coins.txStore.get txid).map (fun entry =>
          entry.movedTo
            (reopened btc headers pass.coins.merkleInFlight txid
              inclusion)) := by
  induction entries generalizing pass with
  | nil =>
      exact ⟨fun _ => rfl, fun _ listed => nomatch listed⟩
  | cons head rest inductionHypothesis =>
      obtain ⟨name, shown⟩ := head
      rw [List.map_cons, List.nodup_cons] at distinct
      obtain ⟨absentAfter, listedAfter⟩ :=
        inductionHypothesis distinct.2
          (reverifyEntry btc headers pass (name, shown))
      rw [List.foldl_cons]
      refine ⟨?_, ?_⟩
      · intro absent
        rw [List.map_cons, List.mem_cons, not_or] at absent
        rw [absentAfter absent.2, get_reverifyEntry,
          if_neg (Ne.symm absent.1)]
      · intro inclusion listed
        rcases List.mem_cons.mp listed with here | later
        · cases here
          rw [absentAfter distinct.1, get_reverifyEntry, if_pos rfl]
        · have other : name ≠ txid := by
            rintro rfl
            exact distinct.1 (List.mem_map.mpr ⟨_, later, rfl⟩)
          rw [listedAfter inclusion later, get_reverifyEntry,
            if_neg other]
          rw [reopened_congr (fun height =>
            merkleInFlight_reverifyEntry pass (name, shown) ⟨txid, height⟩
              (Ne.symm other))]

theorem get_reverifyReminedEntries
    (coins : CoinStore Backend)
    (txid : Txid) :
    (coins.reverifyReminedEntries btc headers).coins.txStore.get txid =
      (coins.txStore.get txid).map (fun entry =>
        entry.movedTo
          (reopened btc headers coins.merkleInFlight txid
            entry.inclusion)) := by
  have distinct : (coins.snapshotInclusions.map Prod.fst).Nodup := by
    rw [snapshotInclusions, List.map_map]
    exact BTreeMap.nodup_toList coins.txStore.store.cache
  obtain ⟨absent, listed⟩ :=
    @get_reverifyEntries _ _ _ btc headers _ distinct
      (ChainPass.start coins) txid
  cases stored : coins.txStore.get txid with
  | none =>
      refine (absent ?_).trans stored
      intro shown
      obtain ⟨⟨name, inclusion⟩, inSnapshot, rfl⟩ := List.mem_map.mp shown
      have found := mem_snapshotInclusions.mp inSnapshot
      rw [TxStore.inclusionOf, stored] at found
      cases found
  | some entry =>
      have shown : (txid, entry.inclusion) ∈ coins.snapshotInclusions :=
        mem_snapshotInclusions.mpr (by rw [TxStore.inclusionOf, stored]; rfl)
      have moved := listed entry.inclusion shown
      rw [show (ChainPass.start coins).coins = coins from rfl,
        stored] at moved
      exact moved

theorem get_resolvePendingClaims
    (btc : Bitcoin Raw)
    (headers : HeaderStore HeaderRows Raw)
    (coins : CoinStore Backend)
    (txid : Txid) :
    (coins.resolvePendingClaims btc headers).coins.txStore.get txid =
        coins.txStore.get txid ∨
      coins.txStore.inclusionOf txid = some .unconfirmed ∧
        ∃ height blockHash,
          (coins.resolvePendingClaims btc headers).coins.txStore.get txid =
            (coins.txStore.get txid).map
              (TxEntry.movedTo · (some (height, blockHash))) := by
  rw [txStore_resolvePendingClaims]
  refine resolveClaims_keeps
    (fun pass =>
      pass.coins.txStore.get txid = coins.txStore.get txid ∨
        coins.txStore.inclusionOf txid = some .unconfirmed ∧
          ∃ height blockHash,
            pass.coins.txStore.get txid =
              (coins.txStore.get txid).map
                (TxEntry.movedTo · (some (height, blockHash))))
    (.inl rfl) ?_
  intro pass claim soFar
  rcases resolveClaim_cases btc headers pass claim with
    same | ⟨blockHash, -, unconfirmed, stamped⟩
  · rw [same]
    exact soFar
  · have moved :
        (pass.stamp claim blockHash).coins.txStore.get txid =
          if claim.txid = txid then
            (pass.coins.txStore.get txid).map
              (TxEntry.movedTo · (some (claim.height, blockHash)))
          else
            pass.coins.txStore.get txid :=
      TxStore.get_updateInclusion ..
    rw [stamped, moved]
    split
    · rename_i here
      subst here
      rcases soFar with before | ⟨-, height, hash, already⟩
      · rw [TxStore.inclusionOf, before] at unconfirmed
        rw [before]
        exact .inr ⟨unconfirmed, claim.height, blockHash, rfl⟩
      · rw [TxStore.inclusionOf, already, Option.map_map] at unconfirmed
        obtain ⟨_, -, impossible⟩ := Option.map_eq_some_iff.mp unconfirmed
        cases impossible
    · exact soFar

/-- The time a stamp pass gives an entry. -/
def stampFor
    (btc : Bitcoin Raw)
    (headers : HeaderStore HeaderRows Raw)
    (entry : TxEntry) : Option Nat :=
  if entry.timestamp.isSome then
    none
  else
    entry.height.bind (fun height =>
      (headers.header btc height).map Header.time)

def stampedAt (entry : TxEntry) : Option Nat → TxEntry
  | some time => { entry with timestamp := some time }
  | none => entry

theorem get_updateTimestamps
    {stamps : List (Txid × Nat)}
    {txid : Txid}
    {time : Option Nat}
    (listed : ∀ stamp, (txid, stamp) ∈ stamps ↔ time = some stamp)
    (txs : TxStore Backend) :
    (stamps.foldl (fun txs stamp => txs.updateTimestamp stamp.1 stamp.2)
        txs).get txid =
      (txs.get txid).map (stampedAt · time) := by
  suffices folded :
      (∀ stamp, (txid, stamp) ∉ stamps) ∧
          (stamps.foldl
            (fun txs stamp => txs.updateTimestamp stamp.1 stamp.2)
            txs).get txid = txs.get txid ∨
        ∃ stamp, (txid, stamp) ∈ stamps ∧
          (stamps.foldl
            (fun txs stamp => txs.updateTimestamp stamp.1 stamp.2)
            txs).get txid =
            (txs.get txid).map (stampedAt · (some stamp)) by
    rcases folded with ⟨absent, same⟩ | ⟨stamp, present, written⟩
    · have noTime : time = none :=
        Option.eq_none_iff_forall_ne_some.mpr
          (fun stamp isStamp => absent stamp ((listed stamp).mpr isStamp))
      rw [same, noTime]
      exact (Option.map_id_apply ..).symm
    · rw [written, (listed stamp).mp present]
  clear listed
  induction stamps generalizing txs with
  | nil =>
      exact .inl ⟨by simp, rfl⟩
  | cons head rest inductionHypothesis =>
      obtain ⟨name, written⟩ := head
      rw [List.foldl_cons]
      rcases inductionHypothesis (txs.updateTimestamp name written) with
        ⟨absent, same⟩ | ⟨stamp, present, later⟩
      · rw [same, TxStore.get_updateTimestamp]
        split
        · rename_i here
          subst here
          exact .inr ⟨written, List.mem_cons_self, rfl⟩
        · rename_i other
          refine .inl ⟨?_, rfl⟩
          intro stamp member
          rcases List.mem_cons.mp member with here | inRest
          · cases here
            exact other rfl
          · exact absent stamp inRest
      · refine .inr ⟨stamp, List.mem_cons_of_mem _ present, ?_⟩
        rw [later, TxStore.get_updateTimestamp]
        split
        · rw [Option.map_map]
          rfl
        · rfl

variable [PersistenceBackend Backend Txid TxEntry]

theorem get_stampConfirmationTimes
    (btc : Bitcoin Raw)
    (headers : HeaderStore HeaderRows Raw)
    (coins : CoinStore Backend)
    (txid : Txid) :
    (coins.stampConfirmationTimes btc headers).txStore.get txid =
      (coins.txStore.get txid).map (fun entry =>
        stampedAt entry (stampFor btc headers entry)) := by
  -- What the pass collects of one entry is the time found for it.
  have collected (name : Txid) (entry : TxEntry) :
      (if entry.timestamp.isSome then
          none
        else
          entry.height.bind (fun height =>
            (headers.header btc height).map
              (fun header => (name, header.time)))) =
        (stampFor btc headers entry).map (fun time => (name, time)) := by
    unfold stampFor
    split
    · rfl
    · rw [Option.map_bind]
      refine Option.bind_congr ?_
      intro height _
      exact (Option.map_map ..).symm
  have listed (stamp : Nat) :
      (txid, stamp) ∈
          coins.txStore.iter.filterMap (fun stored =>
            (stampFor btc headers stored.2).map
              (fun time => (stored.1, time))) ↔
        (coins.txStore.get txid).bind (stampFor btc headers) =
          some stamp := by
    rw [List.mem_filterMap, Option.bind_eq_some_iff]
    constructor
    · rintro ⟨⟨name, entry⟩, member, found⟩
      obtain ⟨time, isTime, same⟩ := Option.map_eq_some_iff.mp found
      cases same
      exact ⟨entry,
        Std.ExtTreeMap.mem_toList_iff_getElem?_eq_some.mp member, isTime⟩
    · rintro ⟨entry, stored, isTime⟩
      exact ⟨(txid, entry),
        Std.ExtTreeMap.mem_toList_iff_getElem?_eq_some.mpr stored,
        by rw [isTime]; rfl⟩
  have folded := get_updateTimestamps listed coins.txStore
  have perEntry :
      (coins.txStore.get txid).map (fun entry =>
          stampedAt entry
            ((coins.txStore.get txid).bind (stampFor btc headers))) =
        (coins.txStore.get txid).map (fun entry =>
          stampedAt entry (stampFor btc headers entry)) := by
    cases coins.txStore.get txid <;> rfl
  rw [perEntry] at folded
  simp only [CoinStore.stampConfirmationTimes, collected]
  split
  · rename_i nothing
    rw [List.isEmpty_iff.mp nothing] at folded
    exact folded
  · rw [TxStore.get_persist]
    exact folded

variable {crate : TxCrate}

omit [PersistenceBackend Backend Txid TxEntry] in
theorem timed_iff_kept :
    coins.Timed btc ↔
      ∀ txid entry, kept coins.txStore txid = some entry →
        entry.Timed btc := by
  constructor
  · intro timed txid entry isKept
    obtain ⟨stored, found, rfl⟩ := Option.map_eq_some_iff.mp isKept
    exact timed txid stored found
  · intro timed txid entry stored
    exact timed txid entry.bare (by rw [kept, stored]; rfl)

omit [PersistenceBackend Backend Txid TxEntry] in
theorem timed_congr
    {after : CoinStore Backend}
    (same :
      ∀ txid, kept after.txStore txid = kept coins.txStore txid) :
    after.Timed btc ↔ coins.Timed btc := by
  rw [timed_iff_kept, timed_iff_kept]
  simp only [same]

omit [PersistenceBackend Backend Txid TxEntry] in
/-- Dropping and demoting transactions leaves no time without its block. -/
theorem Timed.shrinks
    {after : CoinStore Backend}
    (timed : coins.Timed btc)
    (shrinks : Shrinks coins.txStore after.txStore) :
    after.Timed btc := by
  rw [timed_iff_kept] at timed ⊢
  intro txid entry isKept
  rcases shrinks txid with same | gone | demoted
  · rw [same] at isKept
    exact timed txid entry isKept
  · rw [gone] at isKept
    cases isKept
  · rw [demoted] at isKept
    obtain ⟨before, -, rfl⟩ := Option.map_eq_some_iff.mp isKept
    intro time isTime
    cases isTime

omit [PersistenceBackend Backend Txid TxEntry] in
theorem timed_unconfirmed
    (crate : TxCrate)
    (tx : Transaction) : (TxEntry.unconfirmed crate tx).Timed btc := by
  intro time isTime
  cases isTime

theorem Timed.handleTxsResponse
    (sound : coins.Sound crate)
    (timed : coins.Timed btc)
    (txs : List Transaction) :
    (coins.handleTxsResponse crate txs).Timed btc := by
  have slots := slotsKeyed_receiveTxs sound.slots txs
  have inserted
      (updates : List Update)
      (start : TxStore Backend)
      (startTimed :
        ∀ txid entry, start.get txid = some entry → entry.Timed btc) :
      ∀ txid entry,
        (updates.foldl (TxStore.insertUpdate crate) start).get txid =
            some entry →
          entry.Timed btc := by
    refine List.foldlRecOn
      (motive := fun stored : TxStore Backend =>
        ∀ txid entry, stored.get txid = some entry → entry.Timed btc)
      updates _ startTimed ?_
    intro stored held update _ txid entry found
    cases before : stored.get txid with
    | some old =>
        rw [TxStore.get_insertUpdate_of_some update before] at found
        cases found
        exact held txid _ before
    | none =>
        obtain ⟨tx, -, rfl⟩ := TxStore.get_insertUpdate_of_none before found
        exact timed_unconfirmed crate tx
  unfold CoinStore.handleTxsResponse
  rw [timed_congr (bare_generate
    (keyed_insertUpdates sound.keyed
      (slots.subset (fun _ => List.mem_of_mem_filter))))]
  exact inserted _ coins.txStore timed

theorem Timed.recordUnconfirmedTx
    (sound : coins.Sound crate)
    (timed : coins.Timed btc)
    (tx : Transaction) :
    (coins.recordUnconfirmedTx crate tx).Timed btc := by
  simp only [CoinStore.recordUnconfirmedTx]
  split
  · exact timed
  · split
    · rw [timed_congr (bare_generate sound.keyed)]
      exact timed
    · rw [timed_congr (bare_generate
        (keyed_recordUnconfirmed sound.keyed tx))]
      intro txid entry stored
      rw [TxStore.get_update] at stored
      split at stored
      · cases stored
        exact timed_unconfirmed crate tx
      · exact timed txid entry stored

end CoinStore

namespace Reconciler

variable [PersistenceBackend Backend Txid TxEntry]
variable {btc : Bitcoin Raw} {crate : TxCrate}
variable {hashPair : TxMerkleNode → TxMerkleNode → TxMerkleNode}
variable {rec : Reconciler Backend HeaderRows Raw}

theorem kept_persist_generate
    {coins : CoinStore Backend}
    (sound : coins.Sound crate)
    (txid : Txid) :
    CoinStore.kept
        ({ coins with txStore := coins.txStore.persist }.generate
          crate).txStore txid =
      CoinStore.kept coins.txStore txid := by
  have persisted : CoinStore.Sound crate
      { coins with txStore := coins.txStore.persist } :=
    ⟨CoinStore.keyed_persist sound.keyed, sound.slots⟩
  rw [CoinStore.kept, CoinStore.bare_generate persisted.keyed,
    TxStore.get_persist]
  rfl

theorem kept_commitChainUpdate
    (sound : rec.coins.Sound crate)
    (changed : Bool)
    (txid : Txid) :
    CoinStore.kept (rec.commitChainUpdate crate changed).coins.txStore
        txid =
      CoinStore.kept rec.coins.txStore txid := by
  unfold commitChainUpdate
  split
  · exact kept_persist_generate sound txid
  · rfl

/-- A pass moves a stamped transaction into blocks of its own time only. -/
def KeepsTimes
    (btc : Bitcoin Raw)
    (rec : Reconciler Backend HeaderRows Raw) : Prop :=
  rec.headers.isValidated = true →
    ∀ txid entry time height current,
      rec.coins.txStore.get txid = some entry →
      entry.timestamp = some time →
      CoinStore.reopened btc rec.headers rec.coins.merkleInFlight txid
          entry.inclusion =
        some (height, current) →
      OfBlock btc current time

section Passed

variable {txid : Txid} {entry : TxEntry}

omit [PersistenceBackend Backend Txid TxEntry] in
theorem get_passed_of_none
    (absent : rec.coins.txStore.get txid = none) :
    (rec.passed btc).2.coins.txStore.get txid = none := by
  have first : (rec.passed btc).1.coins.txStore.get txid = none :=
    (CoinStore.get_reverifyReminedEntries rec.coins txid).trans
      (by rw [absent]; rfl)
  rcases CoinStore.get_resolvePendingClaims btc rec.headers
      (rec.passed btc).1.coins txid with same | ⟨-, _, _, moved⟩
  · exact same.trans first
  · exact moved.trans (by rw [first]; rfl)

omit [PersistenceBackend Backend Txid TxEntry] in
theorem get_passed_of_reopened
    {block : Nat × BlockHash}
    (stored : rec.coins.txStore.get txid = some entry)
    (moved :
      CoinStore.reopened btc rec.headers rec.coins.merkleInFlight txid
          entry.inclusion =
        some block) :
    (rec.passed btc).2.coins.txStore.get txid =
      some (entry.movedTo (some block)) := by
  have first :
      (rec.passed btc).1.coins.txStore.get txid =
        some (entry.movedTo (some block)) := by
    rw [← moved]
    exact (CoinStore.get_reverifyReminedEntries rec.coins txid).trans
      (by rw [stored]; rfl)
  rcases CoinStore.get_resolvePendingClaims btc rec.headers
      (rec.passed btc).1.coins txid with same | ⟨unconfirmed, -⟩
  · exact same.trans first
  · rw [TxStore.inclusionOf, first] at unconfirmed
    cases unconfirmed

omit [PersistenceBackend Backend Txid TxEntry] in
theorem get_passed_of_unmoved
    (stored : rec.coins.txStore.get txid = some entry)
    (unmoved :
      CoinStore.reopened btc rec.headers rec.coins.merkleInFlight txid
          entry.inclusion =
        none) :
    (rec.passed btc).2.coins.txStore.get txid = some entry ∨
      entry.inclusion = .unconfirmed ∧
        ∃ block, (rec.passed btc).2.coins.txStore.get txid =
          some (entry.movedTo (some block)) := by
  have first : (rec.passed btc).1.coins.txStore.get txid = some entry := by
    refine (CoinStore.get_reverifyReminedEntries rec.coins txid).trans ?_
    rw [stored, Option.map_some, unmoved]
    rfl
  rcases CoinStore.get_resolvePendingClaims btc rec.headers
      (rec.passed btc).1.coins txid with
    same | ⟨unconfirmed, height, blockHash, moved⟩
  · exact .inl (same.trans first)
  · rw [TxStore.inclusionOf, first] at unconfirmed
    exact .inr ⟨Option.some.inj unconfirmed, (height, blockHash),
      moved.trans (by rw [first]; rfl)⟩

end Passed

theorem timed_onChainUpdate_iff
    (sound : rec.coins.Sound crate)
    (timed : rec.coins.Timed btc) :
    (rec.onChainUpdate btc crate).coins.Timed btc ↔
      rec.KeepsTimes btc := by
  cases valid : rec.headers.isValidated with
  | false =>
      obtain ⟨events, told⟩ :=
        onChainUpdate_of_unvalidated btc crate valid
      rw [told]
      refine iff_of_true timed ?_
      intro impossible
      rw [valid] at impossible
      cases impossible
  | true =>
      have promoted : (rec.passed btc).2.coins.Sound crate :=
        (sound.reverifyReminedEntries).resolvePendingClaims
      rw [(onChainUpdate_of_validated btc crate valid).1,
        CoinStore.timed_congr
          (@kept_commitChainUpdate _ _ _ _ crate
            { rec with coins := (rec.passed btc).2.coins } promoted _)]
      constructor
      · intro timedAfter _ txid entry time height current stored isTime moved
        obtain ⟨_, _, inBlock, ofBlock⟩ :=
          timedAfter txid _ (get_passed_of_reopened stored moved) time isTime
        cases inBlock
        exact ofBlock
      · intro keeps txid entry after time isTime
        have passedTo : (rec.passed btc).2.coins.txStore.get txid =
            some entry := after
        cases stored : rec.coins.txStore.get txid with
        | none =>
            rw [get_passed_of_none stored] at passedTo
            cases passedTo
        | some old =>
            cases moved :
                CoinStore.reopened btc rec.headers rec.coins.merkleInFlight
                  txid old.inclusion with
            | some block =>
                rw [get_passed_of_reopened stored moved] at passedTo
                cases passedTo
                exact ⟨block.1, block.2, rfl,
                  keeps valid txid old time _ _ stored isTime moved⟩
            | none =>
                rcases get_passed_of_unmoved stored moved with
                  same | ⟨unconfirmed, block, promotedTo⟩
                · rw [same] at passedTo
                  cases passedTo
                  exact timed txid _ stored time isTime
                · -- A transaction that was unconfirmed had no time.
                  rw [promotedTo] at passedTo
                  cases passedTo
                  obtain ⟨_, _, inBlock, -⟩ :=
                    timed txid old stored time isTime
                  rw [unconfirmed] at inBlock
                  cases inBlock

/-- The block a claim was stamped with has been replaced since. -/
def Reorged
    (btc : Bitcoin Raw)
    (rec : Reconciler Backend HeaderRows Raw)
    (claim : ClaimAt) : Prop :=
  ∃ blockHash current,
    rec.coins.txStore.inclusionOf claim.txid =
      some (.confirmedUnverified claim.height blockHash) ∧
    rec.headers.blockHash btc claim.height = some current ∧
    current ≠ blockHash

variable {claim : ClaimAt} {target : MerkleTarget}

theorem retryReorgedMerkleClaim_of_reorged
    (reorged : rec.Reorged btc claim) :
    rec.retryReorgedMerkleClaim btc crate claim =
      rec.onChainUpdate btc crate := by
  obtain ⟨blockHash, current, stored, known, other⟩ := reorged
  simp [retryReorgedMerkleClaim, stored, known, other]

theorem retryReorgedMerkleClaim_of_not_reorged
    (stays : ¬ rec.Reorged btc claim) :
    rec.retryReorgedMerkleClaim btc crate claim = rec := by
  unfold retryReorgedMerkleClaim
  split
  · rename_i height blockHash stored
    split
    · rename_i replaced
      obtain ⟨rfl, isReplaced⟩ := replaced
      obtain ⟨current, known, other⟩ :=
        (Option.any_eq_true ..).mp isReplaced
      exact (stays ⟨blockHash, current, stored, known,
        of_decide_eq_true other⟩).elim
    · rfl
  · rfl

theorem coins_handleTxMerkle_of_unvalidated
    (refused : rec.headers.isValidated = false)
    (txid : Txid)
    (height : Nat)
    (branch : List TxMerkleNode)
    (pos : UInt32) :
    (rec.handleTxMerkle btc crate hashPair txid height branch pos).coins =
      (rec.freed ⟨txid, height⟩).coins := by
  simp only [handleTxMerkle, headerStoreReady, refused, Bool.false_eq_true,
    ↓reduceIte]
  cases rec.headers.validationFailedReason <;> rfl

theorem handleTxMerkle_of_validated
    (valid : rec.headers.isValidated = true)
    (txid : Txid)
    (height : Nat)
    (branch : List TxMerkleNode)
    (pos : UInt32) :
    rec.handleTxMerkle btc crate hashPair txid height branch pos =
      match (rec.freed ⟨txid, height⟩).resolveTxMerkleTarget btc txid
          height with
      | none =>
          (rec.freed ⟨txid, height⟩).retryReorgedMerkleClaim btc crate
            ⟨txid, height⟩
      | some target =>
          (rec.freed ⟨txid, height⟩).applyTxMerkle crate hashPair target
            branch pos := by
  simp only [handleTxMerkle, headerStoreReady, valid, ↓reduceIte]
  rfl

theorem not_reorged_of_target
    {txid : Txid}
    {height : Nat}
    (resolved :
      rec.resolveTxMerkleTarget btc txid height = some target) :
    ¬ rec.Reorged btc ⟨txid, height⟩ := by
  obtain ⟨header, known, -, claimed⟩ := resolveTxMerkleTarget_eq_some resolved
  rintro ⟨blockHash, current, stored, isCurrent, other⟩
  rw [claimed] at stored
  cases stored
  rw [HeaderStore.blockHash, known] at isCurrent
  exact other (Option.some.inj isCurrent).symm

/--
An outcome frees its slot; then a replaced block runs a pass, and otherwise
the proof is judged or nothing is done.
-/
theorem coins_handleMerkleOutcome
    (btc : Bitcoin Raw)
    (crate : TxCrate)
    (hashPair : TxMerkleNode → TxMerkleNode → TxMerkleNode)
    (rec : Reconciler Backend HeaderRows Raw)
    (outcome : MerkleOutcome) :
    ((rec.freed outcome.claim).Reorged btc outcome.claim ∧
        (rec.handleMerkleOutcome btc crate hashPair outcome).coins =
          ((rec.freed outcome.claim).onChainUpdate btc crate).coins) ∨
      ¬ (rec.freed outcome.claim).Reorged btc outcome.claim ∧
        ((rec.handleMerkleOutcome btc crate hashPair outcome).coins =
            (rec.freed outcome.claim).coins ∨
          ∃ txid height branch pos target,
            (rec.freed outcome.claim).resolveTxMerkleTarget btc txid
                height =
              some target ∧
            (rec.handleMerkleOutcome btc crate hashPair outcome).coins =
              ((rec.freed outcome.claim).applyTxMerkle crate hashPair
                target branch pos).coins) := by
  cases outcome with
  | failed txid height =>
      by_cases reorged : (rec.freed ⟨txid, height⟩).Reorged btc ⟨txid, height⟩
      · exact .inl ⟨reorged, congrArg Reconciler.coins
          (retryReorgedMerkleClaim_of_reorged reorged)⟩
      · exact .inr ⟨reorged, .inl (congrArg Reconciler.coins
          (retryReorgedMerkleClaim_of_not_reorged reorged))⟩
  | proof txid height branch pos =>
      simp only [handleMerkleOutcome, MerkleOutcome.claim]
      cases valid : rec.headers.isValidated with
      | false =>
          -- A pass would not look at such a chain either.
          obtain ⟨events, told⟩ :=
            @onChainUpdate_of_unvalidated _ _ _ _
              (rec.freed ⟨txid, height⟩) btc crate valid
          rw [coins_handleTxMerkle_of_unvalidated valid, told]
          exact (em _).imp (fun reorged => ⟨reorged, rfl⟩)
            (fun stays => ⟨stays, .inl rfl⟩)
      | true =>
          rw [handleTxMerkle_of_validated valid]
          cases resolved :
              (rec.freed ⟨txid, height⟩).resolveTxMerkleTarget btc txid
                height with
          | some target =>
              exact .inr ⟨not_reorged_of_target resolved,
                .inr ⟨txid, height, branch, pos, target, resolved, rfl⟩⟩
          | none =>
              by_cases reorged :
                  (rec.freed ⟨txid, height⟩).Reorged btc ⟨txid, height⟩
              · exact .inl ⟨reorged, congrArg Reconciler.coins
                  (retryReorgedMerkleClaim_of_reorged reorged)⟩
              · exact .inr ⟨reorged, .inl (congrArg Reconciler.coins
                  (retryReorgedMerkleClaim_of_not_reorged reorged))⟩

theorem timed_applyTxMerkle
    (sound : rec.coins.Sound crate)
    (timed : rec.coins.Timed btc)
    {txid : Txid}
    {height : Nat}
    (resolved :
      rec.resolveTxMerkleTarget btc txid height = some target)
    (hashPair : TxMerkleNode → TxMerkleNode → TxMerkleNode)
    (branch : List TxMerkleNode)
    (pos : UInt32) :
    (rec.applyTxMerkle crate hashPair target branch pos).coins.Timed
      btc := by
  obtain ⟨header, -, rfl, claimed⟩ := resolveTxMerkleTarget_eq_some resolved
  have moved
      (inclusion : Inclusion)
      (sameBlock :
        inclusion.block = some (height, btc.blockHash header)) :
      CoinStore.Sound crate
          { rec.coins with
            txStore :=
              rec.coins.txStore.updateInclusion txid inclusion } ∧
        CoinStore.Timed btc
          { rec.coins with
            txStore :=
              rec.coins.txStore.updateInclusion txid inclusion } := by
    refine ⟨⟨CoinStore.keyed_updateInclusion sound.keyed _ _, sound.slots⟩,
      ?_⟩
    intro name entry stored time isTime
    rw [TxStore.get_updateInclusion] at stored
    split at stored
    · rename_i here
      subst here
      obtain ⟨old, found, rfl⟩ := Option.map_eq_some_iff.mp stored
      rw [TxStore.inclusionOf, found] at claimed
      have isOld : old.timestamp = some time := by
        simp only [TxEntry.withInclusion] at isTime
        split at isTime
        · cases isTime
        · exact isTime
      obtain ⟨at_, hash, inBlock, ofBlock⟩ :=
        timed txid old found time isOld
      rw [Option.some.inj claimed] at inBlock
      cases inBlock
      exact ⟨height, _, sameBlock, ofBlock⟩
    · exact timed name entry stored time isTime
  unfold Reconciler.applyTxMerkle
  dsimp only
  split
  · obtain ⟨soundAfter, timedAfter⟩ :=
      moved (.verified height (btc.blockHash header)) rfl
    exact (CoinStore.timed_congr
      (@kept_commitChainUpdate _ _ _ _ crate
        { rec with
          coins :=
            { rec.coins with
              txStore :=
                rec.coins.txStore.updateInclusion txid
                  (.verified height (btc.blockHash header)) } }
        soundAfter true)).mpr timedAfter
  · obtain ⟨soundAfter, timedAfter⟩ :=
      moved (.verifyFailed height (btc.blockHash header)) rfl
    exact (CoinStore.timed_congr
      (kept_persist_generate soundAfter)).mpr timedAfter

theorem timed_handleMerkleOutcome_iff
    (hashPair : TxMerkleNode → TxMerkleNode → TxMerkleNode)
    (sound : rec.coins.Sound crate)
    (timed : rec.coins.Timed btc)
    (outcome : MerkleOutcome) :
    (rec.handleMerkleOutcome btc crate hashPair outcome).coins.Timed btc ↔
      ((rec.freed outcome.claim).Reorged btc outcome.claim →
        (rec.freed outcome.claim).KeepsTimes btc) := by
  have freedSound : (rec.freed outcome.claim).coins.Sound crate :=
    ⟨sound.keyed, sound.slots⟩
  have freedTimed : (rec.freed outcome.claim).coins.Timed btc := timed
  rcases coins_handleMerkleOutcome btc crate hashPair rec outcome with
    ⟨reorged, passed⟩ | ⟨stays, idle | ⟨txid, height, branch, pos, target,
      resolved, judged⟩⟩
  · rw [passed, timed_onChainUpdate_iff freedSound freedTimed]
    exact ⟨fun keeps _ => keeps, fun keeps => keeps reorged⟩
  · rw [idle]
    exact iff_of_true freedTimed (fun reorged => (stays reorged).elim)
  · rw [judged]
    exact iff_of_true
      (timed_applyTxMerkle freedSound freedTimed resolved hashPair branch pos)
      (fun reorged => (stays reorged).elim)

/-- A stamp pass reads every time from a header of the block's own time. -/
def StampsOwn
    (btc : Bitcoin Raw)
    (rec : Reconciler Backend HeaderRows Raw) : Prop :=
  ∀ txid entry height blockHash header,
    rec.coins.txStore.get txid = some entry →
    entry.timestamp = none →
    entry.height = some height →
    entry.inclusion.block = some (height, blockHash) →
    rec.headers.header btc height = some header →
    OfBlock btc blockHash header.time

theorem timed_stampConfirmationTimes_iff
    (timed : rec.coins.Timed btc) :
    (rec.stampConfirmationTimes btc).coins.Timed btc ↔
      rec.StampsOwn btc := by
  have written (txid : Txid) :=
    CoinStore.get_stampConfirmationTimes btc rec.headers rec.coins txid
  constructor
  · intro timedAfter txid entry height blockHash header stored untimed
      atHeight inBlock known
    have given :
        CoinStore.stampFor btc rec.headers entry = some header.time := by
      simp [CoinStore.stampFor, untimed, atHeight, known]
    have after :
        (rec.stampConfirmationTimes btc).coins.txStore.get txid =
          some { entry with timestamp := some header.time } := by
      refine (written txid).trans ?_
      rw [stored, Option.map_some, given]
      rfl
    obtain ⟨_, _, inBlockAfter, ofBlock⟩ :=
      timedAfter txid _ after header.time rfl
    rw [inBlock] at inBlockAfter
    cases inBlockAfter
    exact ofBlock
  · intro stampsOwn txid entry after time isTime
    have isStamped := (written txid).symm.trans after
    obtain ⟨old, stored, rfl⟩ := Option.map_eq_some_iff.mp isStamped
    cases given : CoinStore.stampFor btc rec.headers old with
    | none =>
        rw [given] at isTime
        exact timed txid old stored time isTime
    | some stamp =>
        rw [given] at isTime
        cases isTime
        unfold CoinStore.stampFor at given
        split at given
        · cases given
        · rename_i untimed
          obtain ⟨height, atHeight, isKnown⟩ :=
            Option.bind_eq_some_iff.mp given
          obtain ⟨header, known, rfl⟩ := Option.map_eq_some_iff.mp isKnown
          have inBlock :
              ∃ blockHash,
                old.inclusion.block = some (height, blockHash) := by
            rw [TxEntry.height] at atHeight
            cases inclusion : old.inclusion with
            | unconfirmed =>
                rw [inclusion] at atHeight
                cases atHeight
            | confirmedUnverified own hash | verified own hash =>
                rw [inclusion] at atHeight
                cases atHeight
                exact ⟨hash, rfl⟩
            | verifyFailed own hash =>
                rw [inclusion] at atHeight
                cases atHeight
          obtain ⟨blockHash, inBlock⟩ := inBlock
          exact ⟨height, blockHash, inBlock,
            stampsOwn txid old height blockHash header stored
              (by simpa using untimed) atHeight inBlock known⟩

/-- The step mixes no two chains: passes keep times, stamps read their own. -/
def KeepsBlocks
    (btc : Bitcoin Raw)
    (rec : Reconciler Backend HeaderRows Raw) :
    ScanStep HeaderRows Raw → Prop
  | .chainUpdate => rec.KeepsTimes btc
  | .merkle outcome =>
      (rec.freed outcome.claim).Reorged btc outcome.claim →
        (rec.freed outcome.claim).KeepsTimes btc
  | .stampTimes => rec.StampsOwn btc
  | .history _ _ | .cleared _ | .txs _ | .broadcast _ | .requeue
  | .headers _ => True

theorem timed_step_iff
    (hashPair : TxMerkleNode → TxMerkleNode → TxMerkleNode)
    (sound : rec.coins.Sound crate)
    (timed : rec.coins.Timed btc)
    (next : ScanStep HeaderRows Raw) :
    (rec.step btc crate hashPair next).coins.Timed btc ↔
      rec.KeepsBlocks btc next := by
  cases next with
  | history connected hist =>
      exact iff_of_true
        (timed.shrinks
          (CoinStore.foldHistory_shrinks sound connected hist).2) trivial
  | cleared spk =>
      exact iff_of_true (timed.shrinks (cleared_shrinks sound _).2) trivial
  | txs txs =>
      exact iff_of_true (timed.handleTxsResponse sound txs) trivial
  | broadcast tx =>
      exact iff_of_true (timed.recordUnconfirmedTx sound tx) trivial
  | chainUpdate =>
      exact timed_onChainUpdate_iff sound timed
  | merkle outcome =>
      exact timed_handleMerkleOutcome_iff hashPair sound timed outcome
  | requeue =>
      exact iff_of_true timed trivial
  | stampTimes =>
      exact timed_stampConfirmationTimes_iff timed
  | headers headers =>
      exact iff_of_true timed trivial

/--
Every state of a run has its times right exactly if no step of the run mixes
two chains.
-/
theorem timed_run_iff
    (hashPair : TxMerkleNode → TxMerkleNode → TxMerkleNode)
    (sound : rec.coins.Sound crate)
    (timed : rec.coins.Timed btc)
    (steps : List (ScanStep HeaderRows Raw)) :
    (∀ earlier later, steps = earlier ++ later →
        (rec.run btc crate hashPair earlier).coins.Timed btc) ↔
      ∀ earlier next later, steps = earlier ++ next :: later →
        (rec.run btc crate hashPair earlier).KeepsBlocks btc next := by
  have stepped
      (earlier : List (ScanStep HeaderRows Raw))
      (next : ScanStep HeaderRows Raw) :
      rec.run btc crate hashPair (earlier ++ [next]) =
        (rec.run btc crate hashPair earlier).step btc crate hashPair
          next := by
    rw [run, List.foldl_append, List.foldl_cons, List.foldl_nil, ← run]
  constructor
  · intro allTimed earlier next later split
    have before := allTimed earlier (next :: later) split
    have after := allTimed (earlier ++ [next]) later (by simp [split])
    rw [stepped] at after
    exact (timed_step_iff hashPair (sound_run btc hashPair sound earlier)
      before next).mp after
  · intro allKeep earlier
    induction earlier using List.reverseRecOn with
    | nil =>
        exact fun _ _ => timed
    | append_singleton earlier next inductionHypothesis =>
        intro later split
        have shape : steps = earlier ++ next :: later := by simp [split]
        rw [stepped]
        exact (timed_step_iff hashPair (sound_run btc hashPair sound earlier)
          (inductionHypothesis (next :: later) shape) next).mpr
            (allKeep earlier next later shape)

/--
In the runs of a fresh scan, whatever the server sends and however the header
store moves, every time belongs to its block exactly if no pass moves a
stamped transaction into a block of another time and no stamp reads a header
of another time than the transaction's block.
-/
theorem times_belong_iff
    (btc : Bitcoin Raw)
    (crate : TxCrate)
    (hashPair : TxMerkleNode → TxMerkleNode → TxMerkleNode)
    (addressStore : AddressStore)
    (labels : BTreeMap OutPoint String)
    (backend : Backend)
    (headers : HeaderStore HeaderRows Raw)
    (steps : List (ScanStep HeaderRows Raw)) :
    let start := fresh addressStore labels backend headers
    (∀ earlier later, steps = earlier ++ later →
        (start.run btc crate hashPair earlier).coins.Timed btc) ↔
      ∀ earlier next later, steps = earlier ++ next :: later →
        (start.run btc crate hashPair earlier).KeepsBlocks btc next := by
  intro start
  refine timed_run_iff hashPair
    (sound_fresh addressStore labels backend headers) ?_ steps
  intro txid entry stored
  simp [fresh, CoinStore.new, TxStore.get, RamStore.get,
    RamStore.empty] at stored

def namedByTime : Bitcoin Header where
  deserialize := some
  blockHash header := header.time
  target := Bitcoin.sample.target
  toWork := Bitcoin.sample.toWork
  fromNextWorkRequired := Bitcoin.sample.fromNextWorkRequired
  maxAttainableTarget := Bitcoin.sample.maxAttainableTarget
  genesisBlock := Bitcoin.sample.genesisBlock

/-- A chain whose only block, at height one, has the given time. -/
def chainAt (time : Nat) : HeaderStore (RowBackend Nat Header) Header :=
  sampleHeaders [(1, ⟨0, 0, 7, time, 0, 0⟩)]

/--
A transaction is verified and stamped in a block of time 100; then a block of
time 150 replaces it.
-/
def stampedThenRemined : List (ScanStep (RowBackend Nat Header) Header) :=
  sampleClaim ++
    [.merkle (.proof 7 1 [] 0), .stampTimes, .headers (chainAt 150),
      .chainUpdate]

/-- The transaction is moved to the new block with the old block's time. -/
theorem remined_keeps_old_time :
    let start :
        Reconciler (RowBackend Txid TxEntry) (RowBackend Nat Header)
          Header :=
      fresh AddressStore.sample ∅ ⟨∅, []⟩ (chainAt 100)
    let reached :=
      start.run namedByTime TxCrate.sample (· + ·) stampedThenRemined
    (reached.coins.txStore.get 7).map
          (fun entry => (entry.inclusion, entry.timestamp)) =
        some (.confirmedUnverified 1 150, some 100) ∧
      ¬ reached.coins.Timed namedByTime := by
  intro start reached
  have moved :
      (reached.coins.txStore.get 7).map
          (fun entry => (entry.inclusion, entry.timestamp)) =
        some (.confirmedUnverified 1 150, some 100) := by
    decide +kernel
  refine ⟨moved, ?_⟩
  intro timed
  obtain ⟨entry, stored, same⟩ := Option.map_eq_some_iff.mp moved
  rw [Prod.mk.injEq] at same
  obtain ⟨height, blockHash, inBlock, header, named, ofTime⟩ :=
    timed 7 entry stored 100 same.2
  rw [same.1] at inBlock
  cases inBlock
  -- In this crate the time is the hash.
  have hashIsTime : header.time = 150 := named
  omega

end Reconciler

end Bwk
