import Bwk.CoinStore

namespace Bwk

/-!
# What each operation does to the stored transactions

One lemma for each operation of the coin store, in terms of lookups.  The
later modules argue from these and do not unfold the operations again.
-/

/-- An entry without the metadata `generate` recomputes. -/
def TxEntry.bare (entry : TxEntry) : TxEntry :=
  { entry with inputs := [], outputs := [] }

namespace CoinStore

variable {Backend : Type}

section Generate

variable {crate : TxCrate} {coins : CoinStore Backend}

theorem get_of_mem_transactions
    {txs : TxStore Backend}
    {entry : TxEntry}
    (keyed : txs.Keyed crate)
    (listed : entry ∈ txs.transactions) :
    txs.get (crate.computeTxid entry.tx) = some entry := by
  have pairs : ∃ txid, (txid, entry) ∈ txs.store.cache.toList := by
    simpa [TxStore.transactions, TxStore.iter] using listed
  obtain ⟨txid, member⟩ := pairs
  have stored : txs.get txid = some entry :=
    Std.ExtTreeMap.mem_toList_iff_getElem?_eq_some.mp member
  rw [keyed txid entry stored, stored]

theorem withMetadata_eq_self
    {outputs : BTreeMap OutPoint TxOut}
    {entry : TxEntry}
    (sameOutputs :
      entry.outputs = (coins.withMetadata outputs entry).outputs)
    (sameInputs :
      entry.inputs = (coins.withMetadata outputs entry).inputs) :
    coins.withMetadata outputs entry = entry := by
  cases entry
  simp only [withMetadata, TxEntry.mk.injEq, and_true, true_and]
  exact ⟨sameInputs.symm, sameOutputs.symm⟩

private theorem get_populated
    (known : TxEntry → TxEntry)
    (sameTx : ∀ entry, (known entry).tx = entry.tx)
    (original : TxStore Backend)
    (entries : List TxEntry)
    (recompute : TxStore Backend → TxEntry → TxStore Backend)
    (step :
      ∀ txs entry,
        recompute txs entry = txs.update crate (known entry) ∨
          (recompute txs entry = txs ∧ known entry = entry))
    (stored :
      ∀ entry ∈ entries,
        original.get (crate.computeTxid entry.tx) = some entry)
    (txs : TxStore Backend)
    (partway :
      ∀ query, txs.get query = original.get query ∨
        txs.get query = (original.get query).map known)
    (query : Txid) :
    (entries.foldl recompute txs).get query =
      if query ∈ entries.map (fun entry => crate.computeTxid entry.tx) then
        (original.get query).map known
      else
        txs.get query := by
  induction entries generalizing txs with
  | nil =>
      simp
  | cons entry rest inductionHypothesis =>
      have here := stored entry List.mem_cons_self
      have reached :
          ∀ name, (recompute txs entry).get name =
            if crate.computeTxid entry.tx = name then
              (original.get name).map known
            else
              txs.get name := by
        intro name
        rcases step txs entry with changed | ⟨kept, alike⟩
        · rw [changed, TxStore.get_update, sameTx]
          split
          · rename_i same
            rw [← same, here]
            rfl
          · rfl
        · rw [kept]
          split
          · rename_i same
            rw [← same, here, Option.map_some, alike]
            rcases partway (crate.computeTxid entry.tx) with as | as
            · rw [as, here]
            · rw [as, here, Option.map_some, alike]
          · rfl
      rw [List.foldl_cons,
        inductionHypothesis
          (fun later listed => stored later (List.mem_cons_of_mem _ listed))
          (recompute txs entry)
          (fun name => by
            rw [reached]
            split
            · exact .inr rfl
            · exact partway name),
        reached]
      by_cases later :
          query ∈ rest.map (fun entry => crate.computeTxid entry.tx)
      · rw [if_pos later,
          if_pos (by
            rw [List.map_cons]
            exact List.mem_cons_of_mem _ later)]
      · rw [if_neg later]
        by_cases same : crate.computeTxid entry.tx = query
        · rw [if_pos same, if_pos (by rw [List.map_cons, same]; simp)]
        · rw [if_neg same, if_neg]
          simp only [List.map_cons, List.mem_cons, not_or]
          exact ⟨Ne.symm same, later⟩

theorem get_populateTxMetadata
    (keyed : coins.txStore.Keyed crate)
    (txid : Txid) :
    (coins.populateTxMetadata crate).txStore.get txid =
      (coins.txStore.get txid).map
        (coins.withMetadata (coins.storedOutputs crate)) := by
  refine
    (get_populated (coins.withMetadata (coins.storedOutputs crate))
      (fun _ => rfl) coins.txStore coins.txStore.transactions
      (fun txs entry =>
        let known := coins.withMetadata (coins.storedOutputs crate) entry
        if entry.outputs ≠ known.outputs ∨ entry.inputs ≠ known.inputs then
          txs.update crate known
        else
          txs)
      ?_ (fun entry listed => get_of_mem_transactions keyed listed)
      coins.txStore (fun _ => .inl rfl) txid).trans ?_
  · intro txs entry
    dsimp only
    split
    · exact .inl rfl
    · rename_i same
      rw [not_or, not_not, not_not] at same
      exact .inr ⟨rfl, withMetadata_eq_self same.1 same.2⟩
  split
  · rfl
  · rename_i unlisted
    cases present : coins.txStore.get txid with
    | none =>
        rfl
    | some entry =>
        refine (unlisted (List.mem_map.mpr
          ⟨entry, ?_, keyed txid entry present⟩)).elim
        exact List.mem_map.mpr ⟨(txid, entry),
          Std.ExtTreeMap.mem_toList_iff_getElem?_eq_some.mpr present, rfl⟩

theorem bare_populateTxMetadata
    (keyed : coins.txStore.Keyed crate)
    (txid : Txid) :
    ((coins.populateTxMetadata crate).txStore.get txid).map TxEntry.bare =
      (coins.txStore.get txid).map TxEntry.bare := by
  rw [get_populateTxMetadata keyed, Option.map_map]
  rfl

variable [PersistenceBackend Backend Txid TxEntry]

theorem bare_generate
    (keyed : coins.txStore.Keyed crate)
    (txid : Txid) :
    ((coins.generate crate).txStore.get txid).map TxEntry.bare =
      (coins.txStore.get txid).map TxEntry.bare := by
  simp only [generate, TxStore.get_persist]
  rw [bare_populateTxMetadata]
  exact keyed

theorem inclusionOf_generate
    (keyed : coins.txStore.Keyed crate)
    (txid : Txid) :
    (coins.generate crate).txStore.inclusionOf txid =
      coins.txStore.inclusionOf txid := by
  have same :=
    congrArg (Option.map TxEntry.inclusion) (bare_generate keyed txid)
  simpa [TxStore.inclusionOf, Function.comp_def, TxEntry.bare] using same

theorem innerGet_generate
    (keyed : coins.txStore.Keyed crate)
    (txid : Txid) :
    (coins.generate crate).txStore.innerGet txid =
      coins.txStore.innerGet txid := by
  have same := congrArg (Option.map TxEntry.tx) (bare_generate keyed txid)
  simpa [TxStore.innerGet, Function.comp_def, TxEntry.bare] using same

@[simp] theorem merkleInFlight_generate :
    (coins.generate crate).merkleInFlight = coins.merkleInFlight :=
  rfl

end Generate

def Claimed (coins : CoinStore Backend) (claim : ClaimAt) : Prop :=
  ∃ txids, coins.pendingClaims[claim.height]? = some txids ∧
    claim.txid ∈ txids

section Claims

variable {coins : CoinStore Backend} {claim query : ClaimAt} {txid : Txid}

theorem claimed_insertPendingClaim :
    (coins.insertPendingClaim claim).Claimed query ↔
      query = claim ∨ coins.Claimed query := by
  obtain ⟨name, height⟩ := query
  obtain ⟨claimedName, claimedHeight⟩ := claim
  by_cases same : claimedHeight = height
  · subst height
    have after :
        (coins.insertPendingClaim ⟨claimedName, claimedHeight⟩).Claimed
            ⟨name, claimedHeight⟩ ↔
          name ∈ ((coins.pendingClaims[claimedHeight]?).getD ∅).insert
            claimedName := by
      simp only [Claimed, insertPendingClaim, BTreeMap.getElem?_insert_eq,
        ↓reduceIte, Option.some.injEq, exists_eq_left']
    rw [after, BTreeSet.mem_insert_eq]
    cases before : coins.pendingClaims[claimedHeight]? with
    | none =>
        simp [Claimed, before]
    | some txids =>
        simp [Claimed, before]
  · simp [Claimed, insertPendingClaim, same, Ne.symm same]

theorem claimed_retainClaims
    (left : Nat → BTreeSet Txid → BTreeSet Txid) :
    (coins.retainClaims left).Claimed query ↔
      ∃ txids, coins.pendingClaims[query.height]? = some txids ∧
        query.txid ∈ left query.height txids := by
  simp only [Claimed, retainClaims, Std.ExtTreeMap.getElem?_filterMap']
  constructor
  · rintro ⟨kept, found, member⟩
    obtain ⟨txids, before, remains⟩ := Option.bind_eq_some_iff.mp found
    split at remains
    · cases remains
    · cases remains
      exact ⟨txids, before, member⟩
  · rintro ⟨txids, before, member⟩
    refine ⟨left query.height txids, ?_, member⟩
    have inhabited : (left query.height txids).isEmpty = false :=
      BTreeSet.isEmpty_eq_false_of_mem member
    rw [before, Option.bind_some]
    simp only [inhabited, Bool.false_eq_true, ↓reduceIte]

theorem claimed_prunePendingClaim :
    (coins.prunePendingClaim claim).Claimed query ↔
      coins.Claimed query ∧
        (query.txid = claim.txid → query.height = claim.height) := by
  rw [prunePendingClaim, claimed_retainClaims]
  by_cases same : query.height = claim.height
  · simp [Claimed, same]
  · simp only [same, ne_eq, not_false_eq_true, ↓reduceIte,
      BTreeSet.mem_erase_eq, Claimed, imp_false]
    constructor
    · rintro ⟨txids, before, other, member⟩
      exact ⟨⟨txids, before, member⟩, other⟩
    · rintro ⟨⟨txids, before, member⟩, other⟩
      exact ⟨txids, before, other, member⟩

theorem claimed_dropAllPendingClaims :
    (coins.dropAllPendingClaims txid).Claimed query ↔
      coins.Claimed query ∧ query.txid ≠ txid := by
  rw [dropAllPendingClaims, claimed_retainClaims]
  simp only [BTreeSet.mem_erase_eq, Claimed]
  constructor
  · rintro ⟨txids, before, other, member⟩
    exact ⟨⟨txids, before, member⟩, other⟩
  · rintro ⟨⟨txids, before, member⟩, other⟩
    exact ⟨txids, before, other, member⟩

theorem claimed_removePendingClaim :
    (coins.removePendingClaim claim).Claimed query ↔
      coins.Claimed query ∧ query ≠ claim := by
  obtain ⟨name, height⟩ := query
  obtain ⟨claimedName, claimedHeight⟩ := claim
  simp only [removePendingClaim]
  cases before : coins.pendingClaims[claimedHeight]? with
  | none =>
      refine ⟨fun claimed => ⟨claimed, ?_⟩, fun claimed => claimed.1⟩
      rintro ⟨⟩
      obtain ⟨txids, found, member⟩ := claimed
      rw [before] at found
      cases found
  | some txids =>
      by_cases same : claimedHeight = height
      · subst height
        by_cases emptied : (txids.erase claimedName).isEmpty
        · have onlyClaim : name ∈ txids → name = claimedName := by
            intro member
            by_contra different
            have remains : name ∈ txids.erase claimedName :=
              BTreeSet.mem_erase_eq.mpr ⟨different, member⟩
            rw [BTreeSet.isEmpty_eq_false_of_mem remains] at emptied
            cases emptied
          simp only [emptied, ↓reduceIte, Claimed,
            BTreeMap.getElem?_erase_eq, reduceCtorEq, false_and,
            exists_false, before, Option.some.injEq, exists_eq_left',
            ne_eq, ClaimAt.mk.injEq, and_true, false_iff, not_and, not_not]
          exact onlyClaim
        · simp only [emptied, Bool.false_eq_true, ↓reduceIte, Claimed,
            BTreeMap.getElem?_insert_eq, Option.some.injEq, exists_eq_left',
            BTreeSet.mem_erase_eq, before, ne_eq, ClaimAt.mk.injEq, and_true]
          exact and_comm
      · have elsewhere :
            (if (txids.erase claimedName).isEmpty = true then
                coins.pendingClaims.erase claimedHeight
              else
                coins.pendingClaims.insert claimedHeight
                  (txids.erase claimedName))[height]? =
              coins.pendingClaims[height]? := by
          split <;> simp [same]
        simp only [Claimed, elsewhere, ne_eq, ClaimAt.mk.injEq, Ne.symm same,
          and_false, not_false_eq_true, and_true]

end Claims

variable (txids : List Txid) (txs : TxStore Backend)

theorem get_removeEach
    (query : Txid) :
    (txids.foldl TxStore.remove txs).get query =
      if query ∈ txids then none else txs.get query := by
  induction txids generalizing txs with
  | nil =>
      simp
  | cons txid rest inductionHypothesis =>
      rw [List.foldl_cons, inductionHypothesis, TxStore.get_remove]
      by_cases later : query ∈ rest
      · simp [later]
      · by_cases here : txid = query
        · simp [here]
        · simp [later, here, Ne.symm here]

theorem get_demoteEach
    (query : Txid) :
    (txids.foldl
        (fun txs txid => txs.updateInclusion txid .unconfirmed)
        txs).get query =
      if query ∈ txids then
        (txs.get query).map (TxEntry.withInclusion · .unconfirmed)
      else
        txs.get query := by
  induction txids generalizing txs with
  | nil =>
      simp
  | cons txid rest inductionHypothesis =>
      rw [List.foldl_cons, inductionHypothesis, TxStore.get_updateInclusion]
      by_cases later : query ∈ rest
      · by_cases here : txid = query
        · simp [later, here, Function.comp_def, TxEntry.withInclusion]
        · simp [later, here]
      · by_cases here : txid = query
        · simp [later, here]
        · simp [later, here, Ne.symm here]

theorem dropClaims_eq
    (coins : CoinStore Backend) :
    txids.foldl dropAllPendingClaims coins =
      { coins with
        pendingClaims :=
          (txids.foldl dropAllPendingClaims coins).pendingClaims } := by
  induction txids generalizing coins with
  | nil =>
      rfl
  | cons txid rest inductionHypothesis =>
      rw [List.foldl_cons, inductionHypothesis]
      rfl

theorem claimed_dropClaims
    (coins : CoinStore Backend)
    (query : ClaimAt) :
    (txids.foldl dropAllPendingClaims coins).Claimed query ↔
      coins.Claimed query ∧ query.txid ∉ txids := by
  induction txids generalizing coins with
  | nil =>
      simp
  | cons txid rest inductionHypothesis =>
      rw [List.foldl_cons, inductionHypothesis, claimed_dropAllPendingClaims]
      simp [and_assoc]

def spkDiff
    (coins : CoinStore Backend)
    (spk : ScriptBuf)
    (history : History) : HistoryDiff :=
  ((coins.spkHistory[spk]?.getD SpkHistory.new).insert history).1

section UpdateSpkHistory

variable (coins : CoinStore Backend) (spk : ScriptBuf) (history : History)

theorem get_updateSpkHistory
    (txid : Txid) :
    (coins.updateSpkHistory spk history).2.txStore.get txid =
      if txid ∈ (coins.spkDiff spk history).changed then
        if txid ∈ (coins.spkDiff spk history).removed then
          none
        else
          (coins.txStore.get txid).map
            (TxEntry.withInclusion · .unconfirmed)
      else if txid ∈ (coins.spkDiff spk history).removed then
        none
      else
        coins.txStore.get txid := by
  simp only [updateSpkHistory]
  rw [dropClaims_eq]
  simp only [get_demoteEach, get_removeEach, Std.ExtTreeMap.mem_keys]
  rw [← spkDiff]
  split <;> split <;> rfl

theorem claimed_updateSpkHistory
    (query : ClaimAt) :
    (coins.updateSpkHistory spk history).2.Claimed query ↔
      coins.Claimed query ∧
        query.txid ∉ (coins.spkDiff spk history).changed := by
  have folded :=
    claimed_dropClaims (coins.spkDiff spk history).changed.keys
      { coins with
        spkHistory :=
          coins.spkHistory.insert spk
            ((coins.spkHistory[spk]?.getD SpkHistory.new).insert history).2
        txStore :=
          (coins.spkDiff spk history).changed.keys.foldl
            (fun txs txid => txs.updateInclusion txid .unconfirmed)
            ((coins.spkDiff spk history).removed.keys.foldl TxStore.remove
              coins.txStore) }
      query
  rw [Std.ExtTreeMap.mem_keys] at folded
  exact folded

theorem mem_merkleInFlight_updateSpkHistory
    (claim : ClaimAt) :
    claim ∈ (coins.updateSpkHistory spk history).2.merkleInFlight ↔
      claim ∈ coins.merkleInFlight ∧
        claim.txid ∉ (coins.spkDiff spk history).removed ∧
        claim.txid ∉ (coins.spkDiff spk history).changed := by
  simp only [updateSpkHistory]
  rw [dropClaims_eq]
  simp only [Finset.mem_filter]
  rfl

@[simp] theorem updates_updateSpkHistory :
    (coins.updateSpkHistory spk history).2.updates = coins.updates := by
  simp only [updateSpkHistory]
  rw [dropClaims_eq]

@[simp] theorem spkHistory_updateSpkHistory :
    (coins.updateSpkHistory spk history).2.spkHistory =
      coins.spkHistory.insert spk
        ((coins.spkHistory[spk]?.getD SpkHistory.new).insert history).2 := by
  simp only [updateSpkHistory]
  rw [dropClaims_eq]

end UpdateSpkHistory

/-- What is stored of a transaction, up to recomputed metadata. -/
def kept (txs : TxStore Backend) (txid : Txid) : Option TxEntry :=
  (txs.get txid).map TxEntry.bare

/-- Every transaction is left as it was, dropped or demoted. -/
def Shrinks (before after : TxStore Backend) : Prop :=
  ∀ txid, kept after txid = kept before txid ∨ kept after txid = none ∨
    kept after txid =
      (kept before txid).map (TxEntry.withInclusion · .unconfirmed)

namespace Shrinks

variable {before middle after : TxStore Backend}

theorem refl (txs : TxStore Backend) : Shrinks txs txs :=
  fun _ => .inl rfl

theorem trans
    (first : Shrinks before middle)
    (second : Shrinks middle after) : Shrinks before after := by
  intro txid
  rcases second txid with same | gone | demoted
  · rw [same]
    exact first txid
  · exact .inr (.inl gone)
  · rw [demoted]
    rcases first txid with same | gone | demotedBefore
    · rw [same]
      exact .inr (.inr rfl)
    · rw [gone]
      exact .inr (.inl rfl)
    · rw [demotedBefore, Option.map_map]
      exact .inr (.inr rfl)

theorem keyed
    {crate : TxCrate}
    (shrinks : Shrinks before after)
    (isKeyed : before.Keyed crate) : after.Keyed crate := by
  intro txid entry stored
  have keptAfter : kept after txid = some entry.bare := by
    rw [kept, stored]
    rfl
  have sameTx : ∃ old, before.get txid = some old ∧ old.tx = entry.tx := by
    rcases shrinks txid with same | gone | demoted
    · rw [keptAfter] at same
      obtain ⟨old, found, bare⟩ := Option.map_eq_some_iff.mp same.symm
      have tx : old.bare.tx = entry.bare.tx := congrArg TxEntry.tx bare
      exact ⟨old, found, tx⟩
    · rw [keptAfter] at gone
      cases gone
    · rw [keptAfter, kept, Option.map_map] at demoted
      obtain ⟨old, found, bare⟩ := Option.map_eq_some_iff.mp demoted.symm
      have tx :
          (old.bare.withInclusion .unconfirmed).tx = entry.bare.tx :=
        congrArg TxEntry.tx bare
      exact ⟨old, found, tx⟩
  obtain ⟨old, found, tx⟩ := sameTx
  rw [← tx]
  exact isKeyed txid old found

theorem inclusionOf
    (shrinks : Shrinks before after)
    (txid : Txid) :
    after.inclusionOf txid = before.inclusionOf txid ∨
      after.inclusionOf txid = none ∨
      before.inclusionOf txid ≠ none ∧
        after.inclusionOf txid = some .unconfirmed := by
  have read (txs : TxStore Backend) :
      txs.inclusionOf txid = (kept txs txid).map TxEntry.inclusion := by
    simp [TxStore.inclusionOf, kept, Function.comp_def, TxEntry.bare]
  rw [read after, read before]
  rcases shrinks txid with same | gone | demoted
  · exact .inl (by rw [same])
  · exact .inr (.inl (by rw [gone]; rfl))
  · cases stored : kept before txid with
    | none =>
        rw [stored] at demoted
        exact .inl (by rw [demoted]; rfl)
    | some entry =>
        rw [stored] at demoted
        exact .inr (.inr ⟨by simp, by rw [demoted]; rfl⟩)

end Shrinks

theorem shrinks_updateSpkHistory
    (coins : CoinStore Backend)
    (spk : ScriptBuf)
    (history : History) :
    Shrinks coins.txStore
      (coins.updateSpkHistory spk history).2.txStore := by
  intro txid
  simp only [kept, get_updateSpkHistory]
  split
  · split
    · exact .inr (.inl rfl)
    · refine .inr (.inr ?_)
      rw [Option.map_map, Option.map_map]
      rfl
  · split
    · exact .inr (.inl rfl)
    · exact .inl rfl

theorem shrinks_updateHistories
    (coins : CoinStore Backend)
    (hist : List (ScriptBuf × History)) :
    Shrinks coins.txStore (coins.updateHistories hist).2.txStore := by
  induction hist generalizing coins with
  | nil =>
      exact Shrinks.refl _
  | cons row rest inductionHypothesis =>
      exact
        (shrinks_updateSpkHistory
          { coins with
            addressStore := coins.addressStore.recvCoinAt row.1 }
          row.1 row.2).trans (inductionHypothesis _)

@[simp] theorem updates_updateHistories
    (coins : CoinStore Backend)
    (hist : List (ScriptBuf × History)) :
    (coins.updateHistories hist).2.updates = coins.updates := by
  induction hist generalizing coins with
  | nil =>
      rfl
  | cons row rest inductionHypothesis =>
      simp only [updateHistories]
      rw [inductionHypothesis, updates_updateSpkHistory]

theorem updateHistories_slots
    {coins : CoinStore Backend}
    {hist : List (ScriptBuf × History)}
    {folded : Bool × Update}
    (listed : folded ∈ (coins.updateHistories hist).1)
    {slot : Txid × Option Transaction}
    (inside : slot ∈ folded.2.txs) :
    slot.2 = none := by
  induction hist generalizing coins with
  | nil =>
      cases listed
  | cons row rest inductionHypothesis =>
      rcases List.mem_cons.mp listed with rfl | later
      · obtain ⟨txid, -, rfl⟩ := List.mem_map.mp inside
        rfl
      · exact inductionHypothesis later

variable {txs : TxStore Backend} {update : Update}

theorem insertUpdate_of_stored
    {crate : TxCrate}
    (stored : ∀ slot ∈ update.txs, txs.get slot.1 ≠ none) :
    txs.insertUpdate crate update = txs := by
  suffices slots :
      ∀ slots : List (Txid × Option Transaction),
        (∀ slot ∈ slots, txs.get slot.1 ≠ none) →
          slots.foldl (TxStore.insertNew crate) txs = txs by
    unfold TxStore.insertUpdate
    split
    · exact slots update.txs stored
    · rfl
  intro slots
  induction slots with
  | nil =>
      intro _
      rfl
  | cons slot rest inductionHypothesis =>
      intro present
      have unchanged : txs.insertNew crate slot = txs := by
        unfold TxStore.insertNew
        split
        · rename_i free _
          exact absurd free (present slot List.mem_cons_self)
        · rfl
      rw [List.foldl_cons, unchanged]
      exact inductionHypothesis
        (fun later listed => present later (List.mem_cons_of_mem _ listed))

theorem stored_of_prefill_complete
    (fresh : ∀ slot ∈ update.txs, slot.2 = none)
    (complete : (prefill txs update).isComplete = true) :
    ∀ slot ∈ (prefill txs update).txs, txs.get slot.1 ≠ none := by
  intro slot inside
  have received := List.all_eq_true.mp complete slot inside
  obtain ⟨asked, listed, rfl⟩ := List.mem_map.mp inside
  cases known : txs.innerGet asked.1 with
  | none =>
      simp [known, fresh asked listed] at received
  | some tx =>
      obtain ⟨entry, found, -⟩ := Option.map_eq_some_iff.mp known
      rw [found]
      exact Option.some_ne_none entry

theorem applyComplete_prefill
    (crate : TxCrate)
    (txs : TxStore Backend)
    (updates : List Update)
    (fresh : ∀ update ∈ updates, ∀ slot ∈ update.txs, slot.2 = none) :
    (applyComplete crate txs (updates.map (prefill txs))).2 = txs := by
  simp only [applyComplete]
  induction updates with
  | nil =>
      rfl
  | cons update rest inductionHypothesis =>
      have later :=
        inductionHypothesis
          (fun other listed => fresh other (List.mem_cons_of_mem _ listed))
      rw [List.map_cons, List.filter_cons]
      split
      · rename_i complete
        rw [List.foldl_cons, insertUpdate_of_stored
          (stored_of_prefill_complete (fresh update List.mem_cons_self)
            complete)]
        exact later
      · exact later

section HistoryResponse

variable [PersistenceBackend Backend Txid TxEntry]
variable {crate : TxCrate}

def foldedResponse
    (coins : CoinStore Backend)
    (hist : BTreeMap ScriptBuf History) : CoinStore Backend :=
  let folded := coins.updateHistories hist.toList
  let updates :=
    folded.1.map (fun update => prefill folded.2.txStore update.2)
  { folded.2 with
    updates :=
      folded.2.updates ++
        updates.filter (fun update => !update.isComplete) }

omit [PersistenceBackend Backend Txid TxEntry] in
theorem applyComplete_folded
    (crate : TxCrate)
    (coins : CoinStore Backend)
    (hist : List (ScriptBuf × History)) :
    (applyComplete crate (coins.updateHistories hist).2.txStore
        ((coins.updateHistories hist).1.map (fun update =>
          prefill (coins.updateHistories hist).2.txStore update.2))).2 =
      (coins.updateHistories hist).2.txStore := by
  have mapped :=
    applyComplete_prefill crate (coins.updateHistories hist).2.txStore
      ((coins.updateHistories hist).1.map Prod.snd)
      (by
        intro update listed slot inside
        obtain ⟨folded, member, rfl⟩ := List.mem_map.mp listed
        exact updateHistories_slots member inside)
  rw [List.map_map] at mapped
  exact mapped

/-- A history response folds the histories, and recomputes the coins when a
watch tip moved. -/
theorem handleHistoryResponse_cases
    (crate : TxCrate)
    (coins : CoinStore Backend)
    (hist : BTreeMap ScriptBuf History) :
    (coins.handleHistoryResponse crate hist).2 =
      if (coins.foldedResponse hist).addressStore.recvWatchTip =
            coins.addressStore.recvWatchTip ∧
          (coins.foldedResponse hist).addressStore.changeWatchTip =
            coins.addressStore.changeWatchTip then
        coins.foldedResponse hist
      else
        (coins.foldedResponse hist).generate crate := by
  simp only [handleHistoryResponse, foldedResponse]
  rw [applyComplete_folded]
  rfl

theorem handleHistoryResponse_eq
    (crate : TxCrate)
    (coins : CoinStore Backend)
    (hist : BTreeMap ScriptBuf History) :
    (coins.handleHistoryResponse crate hist).2 =
        coins.foldedResponse hist ∨
      (coins.handleHistoryResponse crate hist).2 =
        (coins.foldedResponse hist).generate crate := by
  rw [handleHistoryResponse_cases]
  split
  · exact .inl rfl
  · exact .inr rfl

theorem shrinks_generate
    {coins : CoinStore Backend}
    (keyed : coins.txStore.Keyed crate) :
    Shrinks coins.txStore (coins.generate crate).txStore :=
  fun txid => .inl (bare_generate keyed txid)

theorem shrinks_handleHistoryResponse
    {coins : CoinStore Backend}
    (keyed : coins.txStore.Keyed crate)
    (hist : BTreeMap ScriptBuf History) :
    Shrinks coins.txStore
      (coins.handleHistoryResponse crate hist).2.txStore := by
  have folded :
      Shrinks coins.txStore (coins.foldedResponse hist).txStore :=
    shrinks_updateHistories coins hist.toList
  rcases handleHistoryResponse_eq crate coins hist with
    plain | regenerated
  · rw [plain]
    exact folded
  · rw [regenerated]
    exact folded.trans (shrinks_generate (folded.keyed keyed))

end HistoryResponse

/-- Every received slot holds the transaction it is named after. -/
def SlotsKeyed (crate : TxCrate) (updates : List Update) : Prop :=
  ∀ update ∈ updates, ∀ txid tx,
    (txid, some tx) ∈ update.txs → crate.computeTxid tx = txid

/-- Transactions are stored, and waited for, under their own names. -/
structure Sound (crate : TxCrate) (coins : CoinStore Backend) : Prop where
  keyed : coins.txStore.Keyed crate
  slots : SlotsKeyed crate coins.updates

section Names

variable {crate : TxCrate}

variable {updates : List Update}

theorem keyed_insertUpdate
    (keyed : txs.Keyed crate)
    (slots :
      ∀ txid tx, (txid, some tx) ∈ update.txs →
        crate.computeTxid tx = txid) :
    (txs.insertUpdate crate update).Keyed crate := by
  intro txid entry stored
  cases before : txs.get txid with
  | some old =>
      rw [TxStore.get_insertUpdate_of_some update before] at stored
      cases stored
      exact keyed txid _ before
  | none =>
      obtain ⟨tx, listed, rfl⟩ :=
        TxStore.get_insertUpdate_of_none before stored
      exact slots txid tx listed

theorem keyed_insertUpdates
    (keyed : txs.Keyed crate)
    (slots : SlotsKeyed crate updates) :
    (updates.foldl (TxStore.insertUpdate crate) txs).Keyed crate := by
  induction updates generalizing txs with
  | nil =>
      exact keyed
  | cons update rest inductionHypothesis =>
      exact inductionHypothesis
        (keyed_insertUpdate keyed (slots update List.mem_cons_self))
        (fun later listed => slots later (List.mem_cons_of_mem _ listed))

theorem inclusionOf_insertUpdates
    (updates : List Update)
    (txs : TxStore Backend)
    (txid : Txid) :
    (updates.foldl (TxStore.insertUpdate crate) txs).inclusionOf txid =
        txs.inclusionOf txid ∨
      txs.inclusionOf txid = none ∧
        (updates.foldl (TxStore.insertUpdate crate) txs).inclusionOf txid =
          some .unconfirmed := by
  induction updates generalizing txs with
  | nil =>
      exact .inl rfl
  | cons update rest inductionHypothesis =>
      have first :
          (txs.insertUpdate crate update).inclusionOf txid =
              txs.inclusionOf txid ∨
            txs.inclusionOf txid = none ∧
              (txs.insertUpdate crate update).inclusionOf txid =
                some .unconfirmed := by
        cases before : txs.get txid with
        | some old =>
            left
            simp only [TxStore.inclusionOf, before,
              TxStore.get_insertUpdate_of_some update before]
        | none =>
            cases after : (txs.insertUpdate crate update).get txid with
            | none =>
                left
                simp only [TxStore.inclusionOf, before, after]
            | some entry =>
                obtain ⟨tx, -, rfl⟩ :=
                  TxStore.get_insertUpdate_of_none before after
                right
                simp only [TxStore.inclusionOf, before, after]
                exact ⟨rfl, rfl⟩
      rw [List.foldl_cons]
      rcases inductionHypothesis (txs.insertUpdate crate update) with
        same | ⟨absent, stored⟩
      · rw [same]
        exact first
      · rw [absent] at first
        rcases first with unchanged | ⟨-, impossible⟩
        · exact .inr ⟨unchanged.symm, stored⟩
        · cases impossible

theorem slotsKeyed_receiveTx
    (slots : SlotsKeyed crate updates)
    (tx : Transaction) :
    SlotsKeyed crate (receiveTx crate updates tx) := by
  intro update listed txid received inside
  obtain ⟨waiting, member, rfl⟩ := List.mem_map.mp listed
  obtain ⟨slot, asked, filled⟩ := List.mem_map.mp inside
  split at filled
  · rename_i here
    cases filled
    exact here.1.symm
  · exact slots waiting member txid received (filled ▸ asked)

theorem slotsKeyed_receiveTxs
    (slots : SlotsKeyed crate updates)
    (txs : List Transaction) :
    SlotsKeyed crate (txs.foldl (receiveTx crate) updates) := by
  induction txs generalizing updates with
  | nil =>
      exact slots
  | cons tx rest inductionHypothesis =>
      exact inductionHypothesis (slotsKeyed_receiveTx slots tx)

theorem SlotsKeyed.subset
    {updates fewer : List Update}
    (slots : SlotsKeyed crate updates)
    (within : ∀ update ∈ fewer, update ∈ updates) :
    SlotsKeyed crate fewer :=
  fun update listed => slots update (within update listed)

theorem keyed_recordUnconfirmed
    (keyed : txs.Keyed crate)
    (tx : Transaction) :
    (txs.update crate (TxEntry.unconfirmed crate tx)).Keyed crate := by
  intro txid entry stored
  rw [TxStore.get_update] at stored
  split at stored
  · rename_i here
    cases stored
    exact here
  · exact keyed txid entry stored

variable [PersistenceBackend Backend Txid TxEntry]

variable {coins : CoinStore Backend}

theorem Sound.generate
    (sound : coins.Sound crate) :
    (coins.generate crate).Sound crate where
  keyed := (shrinks_generate sound.keyed).keyed sound.keyed
  slots := sound.slots

omit [PersistenceBackend Backend Txid TxEntry] in
theorem Sound.foldedResponse
    (sound : coins.Sound crate)
    (hist : BTreeMap ScriptBuf History) :
    (coins.foldedResponse hist).Sound crate := by
  have keyed :=
    (shrinks_updateHistories coins hist.toList).keyed sound.keyed
  refine ⟨keyed, ?_⟩
  intro update listed txid tx inside
  rcases List.mem_append.mp listed with waiting | added
  · rw [updates_updateHistories] at waiting
    exact sound.slots update waiting txid tx inside
  · obtain ⟨row, member, rfl⟩ :=
      List.mem_map.mp (List.mem_of_mem_filter added)
    obtain ⟨slot, asked, filled⟩ := List.mem_map.mp inside
    split at filled
    · rename_i stored known
      cases filled
      obtain ⟨entry, found, rfl⟩ := Option.map_eq_some_iff.mp known
      exact keyed slot.1 entry found
    · rw [filled] at asked
      cases updateHistories_slots member asked

theorem Sound.handleHistoryResponse
    (sound : coins.Sound crate)
    (hist : BTreeMap ScriptBuf History) :
    (coins.handleHistoryResponse crate hist).2.Sound crate := by
  rcases handleHistoryResponse_eq crate coins hist with plain | regenerated
  · rw [plain]
    exact sound.foldedResponse hist
  · rw [regenerated]
    exact (sound.foldedResponse hist).generate

omit [PersistenceBackend Backend Txid TxEntry] in
theorem Sound.receivedTxs
    (sound : coins.Sound crate)
    (txs : List Transaction) :
    CoinStore.Sound crate
      { coins with
        updates :=
          (applyComplete crate coins.txStore
            (txs.foldl (receiveTx crate) coins.updates)).1
        txStore :=
          (applyComplete crate coins.txStore
            (txs.foldl (receiveTx crate) coins.updates)).2 } := by
  have slots := slotsKeyed_receiveTxs sound.slots txs
  exact
    ⟨keyed_insertUpdates sound.keyed
        (slots.subset (fun _ => List.mem_of_mem_filter)),
      slots.subset (fun _ => List.mem_of_mem_filter)⟩

theorem Sound.handleTxsResponse
    (sound : coins.Sound crate)
    (txs : List Transaction) :
    (coins.handleTxsResponse crate txs).Sound crate :=
  (sound.receivedTxs txs).generate

theorem inclusionOf_handleTxsResponse
    (sound : coins.Sound crate)
    (txs : List Transaction)
    (txid : Txid) :
    (coins.handleTxsResponse crate txs).txStore.inclusionOf txid =
        coins.txStore.inclusionOf txid ∨
      coins.txStore.inclusionOf txid = none ∧
        (coins.handleTxsResponse crate txs).txStore.inclusionOf txid =
          some .unconfirmed := by
  have slots := slotsKeyed_receiveTxs sound.slots txs
  unfold handleTxsResponse
  rw [inclusionOf_generate
    (keyed_insertUpdates sound.keyed
      (slots.subset (fun _ => List.mem_of_mem_filter)))]
  exact inclusionOf_insertUpdates _ _ txid

theorem Sound.recordUnconfirmedTx
    (sound : coins.Sound crate)
    (tx : Transaction) :
    (coins.recordUnconfirmedTx crate tx).Sound crate := by
  simp only [CoinStore.recordUnconfirmedTx]
  split
  · exact sound
  · split
    · exact sound.generate
    · exact Sound.generate
        ⟨keyed_recordUnconfirmed sound.keyed tx, sound.slots⟩

theorem inclusionOf_recordUnconfirmedTx
    (sound : coins.Sound crate)
    (tx : Transaction)
    (txid : Txid) :
    (coins.recordUnconfirmedTx crate tx).txStore.inclusionOf txid =
        coins.txStore.inclusionOf txid ∨
      coins.txStore.inclusionOf txid = none ∧
        (coins.recordUnconfirmedTx crate tx).txStore.inclusionOf txid =
          some .unconfirmed := by
  simp only [CoinStore.recordUnconfirmedTx]
  split
  · exact .inl rfl
  · split
    · exact .inl (inclusionOf_generate sound.keyed txid)
    · rename_i absent
      rw [inclusionOf_generate (keyed_recordUnconfirmed sound.keyed tx)]
      simp only [TxStore.inclusionOf, TxStore.get_update]
      split
      · rename_i here
        have missing : coins.txStore.get txid = none := by
          rw [← here]
          exact absent
        exact .inr ⟨by rw [missing]; rfl, rfl⟩
      · exact .inl rfl

end Names

end CoinStore

end Bwk
