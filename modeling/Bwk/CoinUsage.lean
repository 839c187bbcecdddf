import Bwk.CoinMutations

namespace Bwk

/-!
# How an address was used

`generate` records the usage of every script that has a coin.  A script whose
last coin is gone is not visited, so its entry still tells of the coins it had:
the entries match the coins exactly as long as no script lost its last coin.
-/

namespace CoinStore

variable {Backend : Type}

def PaidAt
    (coins : CoinStore Backend)
    (outpoint : OutPoint)
    (spk : ScriptBuf) : Prop :=
  ∃ coin, coins.store[outpoint]? = some coin ∧ coin.spk = spk

def HasCoin (coins : CoinStore Backend) (spk : ScriptBuf) : Prop :=
  ∃ outpoint, coins.PaidAt outpoint spk

structure UsageMatches
    (coins : CoinStore Backend)
    (spk : ScriptBuf)
    (entry : AddressEntry) : Prop where
  notUsed : entry.status = .notUsed ↔ ¬ coins.HasCoin spk
  used :
    entry.status = .used ↔
      ∃ outpoint, ∀ other, coins.PaidAt other spk ↔ other = outpoint
  reused :
    entry.status = .reused ↔
      ∃ first second, first ≠ second ∧
        coins.PaidAt first spk ∧ coins.PaidAt second spk
  funding :
    ∀ txid, txid ∈ entry.fundingTxids ↔
      ∃ outpoint, coins.PaidAt outpoint spk ∧ outpoint.txid = txid
  spending :
    ∀ txid, txid ∈ entry.spendingTxids ↔
      ∃ outpoint stored,
        coins.PaidAt outpoint spk ∧
          coins.txStore.get txid = some stored ∧
          outpoint ∈ stored.tx.input.map TxIn.previousOutput

section Recorded

variable {coins : CoinStore Backend} {spk : ScriptBuf}

theorem mem_rows_of_script
    (outpoint : OutPoint) :
    outpoint ∈
        (coins.store.toList.filter (fun row => row.2.spk = spk)).map
          Prod.fst ↔
      coins.PaidAt outpoint spk := by
  simp only [List.mem_map, List.mem_filter, decide_eq_true_eq, Prod.exists,
    Std.ExtTreeMap.mem_toList_iff_getElem?_eq_some]
  constructor
  · rintro ⟨found, coin, ⟨present, onScript⟩, rfl⟩
    exact ⟨coin, present, onScript⟩
  · rintro ⟨coin, present, onScript⟩
    exact ⟨outpoint, coin, ⟨present, onScript⟩, rfl⟩

theorem usage_of_listed
    {outpoints : List OutPoint}
    (distinct : outpoints.Nodup)
    (listed : ∀ outpoint, outpoint ∈ outpoints ↔ coins.PaidAt outpoint spk)
    {status : AddressStatus}
    (counted :
      status =
        match outpoints.length with
        | 0 => .notUsed
        | 1 => .used
        | _ => .reused) :
    (status = .notUsed ↔ ¬ coins.HasCoin spk) ∧
      (status = .used ↔
        ∃ outpoint, ∀ other, coins.PaidAt other spk ↔ other = outpoint) ∧
      (status = .reused ↔
        ∃ first second, first ≠ second ∧
          coins.PaidAt first spk ∧ coins.PaidAt second spk) := by
  simp only [HasCoin, ← listed]
  subst counted
  match outpoints, distinct with
  | [], _ =>
      simp
  | [only], _ =>
      refine ⟨by simp, by simp, ?_⟩
      simp only [List.length_singleton, reduceCtorEq, false_iff,
        List.mem_singleton]
      rintro ⟨first, second, apart, rfl, rfl⟩
      exact apart rfl
  | first :: second :: rest, distinct =>
      have apart : first ≠ second := by
        intro same
        simp [same] at distinct
      refine ⟨by simp, ?_, ?_⟩
      · simp only [List.length_cons, reduceCtorEq, false_iff]
        rintro ⟨only, alone⟩
        exact apart
          (((alone first).mp (by simp)).trans
            ((alone second).mp (by simp)).symm)
      · simp only [List.length_cons, true_iff]
        exact ⟨first, second, apart, by simp, by simp⟩

theorem usageMatches_recorded
    (entry : AddressEntry) :
    coins.UsageMatches spk
      { entry with
        status := usage coins.store spk
        fundingTxids := fundingTxids coins.store spk
        spendingTxids := coins.spendingTxids coins.store spk } := by
  have distinct :
      ((coins.store.toList.filter (fun row => row.2.spk = spk)).map
        Prod.fst).Nodup :=
    (BTreeMap.nodup_toList coins.store).sublist
      (List.filter_sublist.map Prod.fst)
  have counted :
      usage coins.store spk =
        match
          ((coins.store.toList.filter
            (fun row => row.2.spk = spk)).map Prod.fst).length with
        | 0 => .notUsed
        | 1 => .used
        | _ => .reused := by
    rw [usage, List.length_map]
    all_goals rfl
  obtain ⟨notUsed, used, reused⟩ :=
    usage_of_listed distinct mem_rows_of_script counted
  refine ⟨notUsed, used, reused, ?_, ?_⟩
  · intro txid
    rw [fundingTxids, Std.ExtTreeSet.mem_ofList, List.contains_iff_mem]
    simp only [List.mem_map, ← mem_rows_of_script]
    constructor
    · rintro ⟨row, member, rfl⟩
      exact ⟨row.1, ⟨row, member, rfl⟩, rfl⟩
    · rintro ⟨outpoint, ⟨row, member, rfl⟩, rfl⟩
      exact ⟨row, member, rfl⟩
  · intro txid
    rw [spendingTxids, Std.ExtTreeSet.mem_ofList, List.contains_iff_mem]
    simp only [List.mem_map, List.mem_filter, List.any_eq_true,
      Option.any_eq_true, decide_eq_true_eq, Prod.exists]
    constructor
    · rintro ⟨_, stored, ⟨inStore, input, member, coin, present,
        onScript⟩, rfl⟩
      exact ⟨input.previousOutput, stored, ⟨coin, present, onScript⟩,
        Std.ExtTreeMap.mem_toList_iff_getElem?_eq_some.mp inStore,
        input, member, rfl⟩
    · rintro ⟨_, stored, ⟨coin, present, onScript⟩, found, input, member,
        rfl⟩
      exact ⟨txid, stored,
        ⟨Std.ExtTreeMap.mem_toList_iff_getElem?_eq_some.mpr found,
          input, member, coin, present, onScript⟩, rfl⟩

theorem usageMatches_of_no_coin
    {entry : AddressEntry}
    (none : ¬ coins.HasCoin spk) :
    coins.UsageMatches spk entry ↔
      entry.status = .notUsed ∧ entry.fundingTxids = ∅ ∧
        entry.spendingTxids = ∅ := by
  have unpaid (outpoint : OutPoint) : ¬ coins.PaidAt outpoint spk :=
    fun paid => none ⟨outpoint, paid⟩
  constructor
  · intro is
    refine ⟨is.notUsed.mpr none, ?_, ?_⟩
    · apply Std.ExtTreeSet.ext_mem
      intro txid
      rw [is.funding]
      simp [unpaid]
    · apply Std.ExtTreeSet.ext_mem
      intro txid
      rw [is.spending]
      simp [unpaid]
  · rintro ⟨notUsed, funding, spending⟩
    refine ⟨by simp [notUsed, none], ?_, ?_, ?_, ?_⟩
    · simp only [notUsed, reduceCtorEq, false_iff]
      rintro ⟨outpoint, alone⟩
      exact unpaid outpoint ((alone outpoint).mpr rfl)
    · simp only [notUsed, reduceCtorEq, false_iff]
      rintro ⟨first, -, -, paid, -⟩
      exact unpaid first paid
    · simp [funding, unpaid]
    · simp [spending, unpaid]

end Recorded

variable [PersistenceBackend Backend Txid TxEntry]
variable {crate : TxCrate} {coins : CoinStore Backend} {spk : ScriptBuf}

theorem mem_scripts_iff :
    spk ∈ Std.ExtTreeSet.ofList
        ((coins.coinMap crate).toList.map (fun row => row.2.spk)) ↔
      (coins.generate crate).HasCoin spk := by
  rw [Std.ExtTreeSet.mem_ofList, List.contains_iff_mem]
  simp only [List.mem_map, Prod.exists,
    Std.ExtTreeMap.mem_toList_iff_getElem?_eq_some]
  exact Iff.rfl

theorem getEntry_generate_of_no_coin
    (none : ¬ (coins.generate crate).HasCoin spk) :
    (coins.generate crate).addressStore.getEntry spk =
      coins.addressStore.getEntry spk := by
  refine (getEntry_updateAddresses coins (coins.coinMap crate) spk).trans ?_
  rw [if_neg (fun visited => none (mem_scripts_iff.mp visited))]

theorem usageMatches_generate
    (keyed : coins.txStore.Keyed crate)
    (some : (coins.generate crate).HasCoin spk) :
    ∃ entry,
      (coins.generate crate).addressStore.getEntry spk = Option.some entry ∧
        (coins.generate crate).UsageMatches spk entry := by
  obtain ⟨outpoint, coin, present, rfl⟩ := some
  obtain ⟨_, address, is⟩ := (getElem?_coinMap keyed outpoint coin).mp present
  refine ⟨_,
    (getEntry_updateAddresses coins (coins.coinMap crate) coin.spk).trans
      ?_, usageMatches_recorded address⟩
  rw [if_pos (mem_scripts_iff.mpr ⟨outpoint, coin, present, rfl⟩),
    Coin.spk, is.known, Option.map_some,
    spendingTxids_congr (sameSources_generate keyed)]
  rfl

def HadCoin
    (crate : TxCrate)
    (coins : CoinStore Backend)
    (steps : List StoreStep)
    (spk : ScriptBuf) : Prop :=
  ∃ earlier later,
    steps = earlier ++ later ∧ (coins.storeRun crate earlier).HasCoin spk

theorem hadCoin_concat
    (steps : List StoreStep)
    (next : StoreStep) :
    coins.HadCoin crate (steps ++ [next]) spk ↔
      coins.HadCoin crate steps spk ∨
        (coins.storeRun crate (steps ++ [next])).HasCoin spk := by
  constructor
  · rintro ⟨earlier, later, split, had⟩
    rcases List.eq_nil_or_concat later with rfl | ⟨front, last, rfl⟩
    · rw [List.append_nil] at split
      exact .inr (split ▸ had)
    · rw [List.concat_eq_append, ← List.append_assoc] at split
      obtain ⟨same, -⟩ := List.append_inj' split rfl
      exact .inl ⟨earlier, front, same, had⟩
  · rintro (⟨earlier, later, rfl, had⟩ | has)
    · exact ⟨earlier, later ++ [next], by simp, had⟩
    · exact ⟨steps ++ [next], [], by simp, has⟩

/-- What the entries tell of a run: a fresh entry of no coin, another of one. -/
structure Remembers
    (crate : TxCrate)
    (coins : CoinStore Backend)
    (steps : List StoreStep) : Prop where
  fresh :
    ∀ spk entry,
      (coins.storeRun crate steps).addressStore.getEntry spk = some entry →
        ¬ coins.HadCoin crate steps spk →
          entry.status = .notUsed ∧ entry.fundingTxids = ∅ ∧
            entry.spendingTxids = ∅
  known :
    ∀ spk, coins.HadCoin crate steps spk →
      ∃ entry,
        (coins.storeRun crate steps).addressStore.getEntry spk =
            some entry ∧
          entry.status ≠ .notUsed

theorem Remembers.mutate
    {steps : List StoreStep}
    (remembers : coins.Remembers crate steps)
    (mutation : StoreMutation) :
    coins.Remembers crate (steps ++ [.mutate mutation]) := by
  have generates :
      AddressStore.Generates (coins.storeRun crate steps).addressStore
        (coins.storeRun crate (steps ++ [.mutate mutation])).addressStore := by
    rw [storeRun_concat]
    exact generates_mutate mutation
  have had (spk : ScriptBuf) :
      coins.HadCoin crate (steps ++ [.mutate mutation]) spk ↔
        coins.HadCoin crate steps spk := by
    rw [hadCoin_concat, or_iff_left_iff_imp]
    rintro ⟨outpoint, coin, present, onScript⟩
    rw [storeRun_concat, storeStep, store_mutate] at present
    exact ⟨steps, [], by simp, outpoint, coin, present, onScript⟩
  refine ⟨?_, ?_⟩
  · intro spk entry found unused
    rw [had] at unused
    rcases generates spk with same | ⟨-, account, index, fresh⟩
    · exact remembers.fresh spk entry (same.symm.trans found) unused
    · rw [found] at fresh
      cases fresh
      exact ⟨rfl, rfl, rfl⟩
  · intro spk used
    obtain ⟨entry, found, inUse⟩ := remembers.known spk ((had spk).mp used)
    rcases generates spk with same | ⟨new, -⟩
    · exact ⟨entry, same.trans found, inUse⟩
    · rw [found] at new
      cases new

theorem Remembers.generate
    {steps : List StoreStep}
    (remembers : coins.Remembers crate steps)
    (keyed : coins.txStore.Keyed crate) :
    coins.Remembers crate (steps ++ [.generate]) := by
  have keyedNow := keyed_storeRun keyed steps
  refine ⟨?_, ?_⟩
  · intro spk entry found unused
    rw [hadCoin_concat, not_or, storeRun_concat] at unused
    rw [storeRun_concat, storeStep,
      getEntry_generate_of_no_coin unused.2] at found
    exact remembers.fresh spk entry found unused.1
  · intro spk used
    rw [storeRun_concat, storeStep]
    by_cases has :
        ((coins.storeRun crate steps).generate crate).HasCoin spk
    · obtain ⟨entry, found, is⟩ := usageMatches_generate keyedNow has
      exact ⟨entry, found, fun notUsed => is.notUsed.mp notUsed has⟩
    · rw [hadCoin_concat, storeRun_concat] at used
      rw [getEntry_generate_of_no_coin has]
      exact remembers.known spk (used.resolve_right has)

theorem remembers_storeRun
    (keyed : coins.txStore.Keyed crate)
    (noCoins : coins.store = ∅)
    (unused :
      ∀ spk entry, coins.addressStore.getEntry spk = some entry →
        entry.status = .notUsed ∧ entry.fundingTxids = ∅ ∧
          entry.spendingTxids = ∅)
    (steps : List StoreStep) : coins.Remembers crate steps := by
  induction steps using List.reverseRecOn with
  | nil =>
      refine ⟨fun spk entry found _ => unused spk entry found, ?_⟩
      rintro spk ⟨earlier, later, split, outpoint, coin, present, -⟩
      obtain ⟨rfl, -⟩ := List.append_eq_nil_iff.mp split.symm
      rw [storeRun_nil, noCoins] at present
      simp at present
  | append_singleton steps next inductionHypothesis =>
      cases next with
      | mutate mutation =>
          exact inductionHypothesis.mutate mutation
      | generate =>
          exact inductionHypothesis.generate keyed

/--
After a generation every address entry matches the coins and the stored
transactions exactly if every script that ever had a coin still has one.
-/
theorem usage_matches_iff
    (crate : TxCrate)
    (coins : CoinStore Backend)
    (keyed : coins.txStore.Keyed crate)
    (noCoins : coins.store = ∅)
    (unused :
      ∀ spk entry, coins.addressStore.getEntry spk = some entry →
        entry.status = .notUsed ∧ entry.fundingTxids = ∅ ∧
          entry.spendingTxids = ∅)
    (steps : List StoreStep) :
    (∀ spk entry,
        (coins.storeRun crate
            (steps ++ [.generate])).addressStore.getEntry spk =
          some entry →
        (coins.storeRun crate (steps ++ [.generate])).UsageMatches spk
          entry) ↔
      ∀ spk, coins.HadCoin crate steps spk →
        (coins.storeRun crate (steps ++ [.generate])).HasCoin spk := by
  have remembers := remembers_storeRun keyed noCoins unused steps
  have keyedNow := keyed_storeRun keyed steps
  rw [storeRun_concat, storeStep]
  constructor
  · intro allMatch spk had
    by_contra none
    obtain ⟨entry, found, inUse⟩ := remembers.known spk had
    rw [← getEntry_generate_of_no_coin none] at found
    exact inUse ((allMatch spk entry found).notUsed.mpr none)
  · intro keeps spk entry found
    by_cases has :
        ((coins.storeRun crate steps).generate crate).HasCoin spk
    · obtain ⟨recorded, known, is⟩ := usageMatches_generate keyedNow has
      rw [found] at known
      cases known
      exact is
    · rw [getEntry_generate_of_no_coin has] at found
      exact (usageMatches_of_no_coin has).mpr
        (remembers.fresh spk entry found
          (fun had => has (keeps spk had)))

/-- A scan that starts with nothing stored. -/
def unusedCoins : CoinStore (RowBackend Txid TxEntry) where
  store := ∅
  spkToOutpoint := ∅
  labels := ∅
  addressStore := AddressStore.sample
  txStore := ⟨RamStore.empty ⟨∅, []⟩⟩
  spkHistory := ∅
  updates := []
  generated := false
  pendingClaims := ∅
  merkleInFlight := ∅
  headerScanner := false
  events := []

theorem unused_sample
    (spk : ScriptBuf)
    (entry : AddressEntry)
    (found : unusedCoins.addressStore.getEntry spk = some entry) :
    entry.status = .notUsed ∧ entry.fundingTxids = ∅ ∧
      entry.spendingTxids = ∅ := by
  have generates :=
    AddressStore.generates_populateMaybe
      { derivator := ⟨fun index => 2 * index, fun index => 2 * index + 1⟩
        store := ∅
        recvGeneratedTip := 0
        changeGeneratedTip := 0
        lookAhead := 0
        derived := by simp }
  rcases generates spk with same | ⟨-, account, index, fresh⟩
  · have absent : unusedCoins.addressStore.getEntry spk = none :=
      same.trans (by simp [AddressStore.getEntry])
    rw [found] at absent
    cases absent
  · have isFresh : some entry = some (AddressEntry.fresh account index) :=
      found.symm.trans fresh
    cases isFresh
    exact ⟨rfl, rfl, rfl⟩

theorem keyed_unusedCoins : unusedCoins.txStore.Keyed TxCrate.sample := by
  intro txid entry stored
  have absent : unusedCoins.txStore.get txid = none := by
    simp [unusedCoins, TxStore.get, RamStore.get, RamStore.empty]
  rw [absent] at stored
  cases stored

/-- A payment arrives and the coins are recomputed. -/
def paidOnce : List StoreStep :=
  [.mutate (.addTx ⟨2, 1, [], [⟨5, 0⟩]⟩), .generate]

def EveryUsageMatches (coins : CoinStore Backend) : Prop :=
  ∀ spk entry,
    coins.addressStore.getEntry spk = some entry →
      coins.UsageMatches spk entry

/-- As long as the payment stays, all entries match. -/
theorem usage_matches_paid :
    (unusedCoins.storeRun TxCrate.sample
      (paidOnce ++ [.generate])).EveryUsageMatches := by
  refine (usage_matches_iff TxCrate.sample unusedCoins keyed_unusedCoins
    rfl unused_sample paidOnce).mpr ?_
  have coinless (earlier : List StoreStep) (spk : ScriptBuf)
      (empty :
        (unusedCoins.storeRun TxCrate.sample earlier).store = ∅) :
      ¬ (unusedCoins.storeRun TxCrate.sample earlier).HasCoin spk := by
    rintro ⟨outpoint, coin, present, -⟩
    rw [empty] at present
    simp at present
  rintro spk ⟨earlier, later, split, has⟩
  match earlier, split with
  | [], _ =>
      exact absurd has (coinless [] spk rfl)
  | [_], split =>
      cases split
      exact absurd has (coinless _ spk rfl)
  | [_, _], split =>
      cases split
      -- A second generation lists the same coins.
      have reached :
          unusedCoins.storeRun TxCrate.sample paidOnce =
            (unusedCoins.mutate TxCrate.sample
              (.addTx ⟨2, 1, [], [⟨5, 0⟩]⟩)).generate TxCrate.sample :=
        rfl
      rw [storeRun_concat, storeStep, reached,
        generate_again (keyed_mutate keyed_unusedCoins _)]
      exact has
  | _ :: _ :: _ :: rest, split =>
      simp [paidOnce] at split

/-- Once the payment is removed, the entry of its script still tells of it. -/
theorem removed_stays_used :
    let reached :=
      unusedCoins.storeRun TxCrate.sample
        (paidOnce ++ [.mutate (.removeTx 1)] ++ [.generate])
    ¬ ∀ spk entry, reached.addressStore.getEntry spk = some entry →
        reached.UsageMatches spk entry := by
  intro reached allMatch
  have stale :
      (reached.addressStore.getEntry 0).map
          (fun entry => (entry.status, entry.fundingTxids.toList)) =
        some (.used, [1]) := by
    decide +kernel
  have empty : reached.store.toList = [] := by
    decide +kernel
  obtain ⟨entry, found, shape⟩ := Option.map_eq_some_iff.mp stale
  have none : ¬ reached.HasCoin 0 := by
    rintro ⟨outpoint, coin, present, -⟩
    have listed :=
      Std.ExtTreeMap.mem_toList_iff_getElem?_eq_some.mpr present
    rw [empty] at listed
    cases listed
  have notUsed := (allMatch 0 entry found).notUsed.mpr none
  simp [notUsed] at shape

end CoinStore

end Bwk
