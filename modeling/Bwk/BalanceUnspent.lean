import Bwk.Balance

namespace Bwk

/-!
# The balance is what is unspent

Over all stored transactions the outputs owned are the coins, each once, and
the inputs owned are the coins that were spent, each once as long as no
outpoint is an input twice.  What a transaction nets telescopes, so the
payments add up to the coins that are left.
-/

namespace TxEntry

/-- What the inputs ours are worth. -/
def inputsValue (entry : TxEntry) : Nat :=
  entry.ownedInputs.sum

/-- What the outputs ours are worth. -/
def outputsValue (entry : TxEntry) : Nat :=
  (entry.ownedOutputs.map (fun row => row.1.value)).sum

end TxEntry

namespace CoinStore

variable {Backend : Type}

/-- The value of the coin at an outpoint, none being worth nothing. -/
def coinValue (coinMap : BTreeMap OutPoint Coin) (outpoint : OutPoint) : Nat :=
  coinMap.share (fun _ coin => coin.txout.value) outpoint

def totalValue (coinMap : BTreeMap OutPoint Coin) : Nat :=
  coinMap.total (fun _ coin => coin.txout.value)

def unspentValue (coinMap : BTreeMap OutPoint Coin) : Nat :=
  coinMap.total (fun _ coin =>
    if coin.status = .spent then 0 else coin.txout.value)

/-- Every stored transaction has its metadata up to date. -/
def HasMetadata (crate : TxCrate) (coins : CoinStore Backend) : Prop :=
  ∀ entry ∈ coins.txStore.transactions,
    coins.withMetadata (coins.storedOutputs crate) entry = entry

section Values

variable {crate : TxCrate} {coins : CoinStore Backend}

theorem coinValue_coinMap
    (keyed : coins.txStore.Keyed crate)
    (outpoint : OutPoint) :
    coinValue (coins.coinMap crate) outpoint =
      match (coins.storedOutputs crate)[outpoint]? with
      | some txout =>
          if coins.addressStore.containsSpk txout.scriptPubkey then
            txout.value
          else
            0
      | none => 0 := by
  rw [coinValue, BTreeMap.share]
  cases found : (coins.coinMap crate)[outpoint]? with
  | some coin =>
      obtain ⟨entry, address, is⟩ :=
        (getElem?_coinMap keyed outpoint coin).mp found
      have listed :=
        (getElem?_storedOutputs keyed outpoint coin.txout).mpr
          ⟨entry, is.stored, is.paid⟩
      have watched :
          coins.addressStore.containsSpk coin.txout.scriptPubkey = true :=
        decide_eq_true
          (BTreeMap.mem_iff_getElem?.mpr ⟨address, is.known⟩)
      simp [listed, watched]
  | none =>
      cases listed : (coins.storedOutputs crate)[outpoint]? with
      | none =>
          rfl
      | some txout =>
          obtain ⟨entry, stored, paid⟩ :=
            (getElem?_storedOutputs keyed outpoint txout).mp listed
          cases known : coins.addressStore.getEntry txout.scriptPubkey with
          | none =>
              have unwatched :
                  coins.addressStore.containsSpk txout.scriptPubkey =
                    false :=
                decide_eq_false (BTreeMap.not_mem_iff_getElem?.mpr known)
              simp [unwatched]
          | some address =>
              have received :=
                (getElem?_receivedCoins keyed outpoint _).mpr
                  ⟨entry, txout, address, stored, paid, known, rfl⟩
              rw [coinMap, getElem?_foldl_markSpent, received] at found
              split at found <;> cases found

theorem sum_ownedInputs
    (keyed : coins.txStore.Keyed crate)
    (known : coins.HasMetadata crate)
    {entry : TxEntry}
    (listed : entry ∈ coins.txStore.transactions) :
    entry.inputsValue =
      ((entry.tx.input.map TxIn.previousOutput).map
        (coinValue (coins.coinMap crate))).sum := by
  have metadata :
      entry.inputs =
        entry.tx.input.map
          (coins.inputMetadata (coins.storedOutputs crate)) := by
    rw [← congrArg TxEntry.inputs (known entry listed)]
    rfl
  rw [TxEntry.inputsValue, TxEntry.ownedInputs, metadata]
  generalize entry.tx.input = inputs
  induction inputs with
  | nil =>
      rfl
  | cons input rest inductionHypothesis =>
      have worth := coinValue_coinMap keyed input.previousOutput
      simp only [List.map_cons, List.sum_cons, ← inductionHypothesis, worth,
        List.filter_cons, inputMetadata]
      cases (coins.storedOutputs crate)[input.previousOutput]? with
      | none =>
          simp
      | some txout =>
          by_cases watched :
              coins.addressStore.containsSpk txout.scriptPubkey = true
          · simp [watched]
          · simp [watched]

theorem ownedOutputs_values
    (known : coins.HasMetadata crate)
    {entry : TxEntry}
    (listed : entry ∈ coins.txStore.transactions) :
    entry.ownedOutputs.map (fun row => row.1.value) =
      (coins.receivedFrom crate entry).map
        (fun row => row.2.txout.value) := by
  have metadata :
      entry.outputs =
        entry.tx.output.map (fun txout =>
          ⟨coins.addressStore.containsSpk txout.scriptPubkey⟩) := by
    rw [← congrArg TxEntry.outputs (known entry listed)]
    rfl
  rw [TxEntry.ownedOutputs, metadata, List.zipIdx_map, List.filterMap_map,
    List.map_filterMap, receivedFrom, List.map_filterMap]
  refine List.filterMap_congr (fun row member => ?_)
  obtain ⟨txout, vout⟩ := row
  have paid : entry.tx.output[vout]? = some txout :=
    List.mk_mem_zipIdx_iff_getElem?.mp member
  cases address : coins.addressStore.getEntry txout.scriptPubkey with
  | none =>
      have unwatched :
          coins.addressStore.containsSpk txout.scriptPubkey = false :=
        decide_eq_false (BTreeMap.not_mem_iff_getElem?.mpr address)
      simp [unwatched, address]
  | some found =>
      have watched :
          coins.addressStore.containsSpk txout.scriptPubkey = true :=
        decide_eq_true (BTreeMap.mem_iff_getElem?.mpr ⟨found, address⟩)
      simp [watched, paid, address]

theorem nodup_received
    (keyed : coins.txStore.Keyed crate) :
    ((coins.txStore.iter.flatMap
      (fun stored => coins.receivedFrom crate stored.2)).map
        Prod.fst).Nodup := by
  have within :
      ∀ (entry : TxEntry),
        (coins.receivedFrom crate entry).Pairwise
          (fun row other => row.1 ≠ other.1) := by
    intro entry
    have positions :
        entry.tx.output.zipIdx.Pairwise
          (fun row other => row.2 ≠ other.2) :=
      List.pairwise_map.mp (List.nodup_zipIdx_map_snd entry.tx.output)
    refine positions.filterMap _ ?_
    rintro ⟨txout, vout⟩ ⟨txout', vout'⟩ apart row here other there same
    obtain ⟨address, -, rfl⟩ := Option.map_eq_some_iff.mp here
    obtain ⟨address', -, rfl⟩ := Option.map_eq_some_iff.mp there
    exact apart (congrArg OutPoint.vout same)
  have txids :
      coins.txStore.iter.Pairwise (fun stored other => stored.1 ≠ other.1) :=
    List.pairwise_map.mp (BTreeMap.nodup_toList coins.txStore.store.cache)
  have named :
      ∀ stored ∈ coins.txStore.iter,
        ∀ row ∈ coins.receivedFrom crate stored.2,
          row.1.txid = stored.1 := by
    intro stored member row received
    obtain ⟨output, -, found⟩ := List.mem_filterMap.mp received
    obtain ⟨address, -, rfl⟩ := Option.map_eq_some_iff.mp found
    exact keyed stored.1 stored.2
      (Std.ExtTreeMap.mem_toList_iff_getElem?_eq_some.mp member)
  rw [List.Nodup, List.pairwise_map, List.pairwise_flatMap]
  refine ⟨fun stored _ => within stored.2, ?_⟩
  refine txids.imp_of_mem (fun here there apart row received other
    otherReceived same => apart ?_)
  rw [← named _ here row received, same,
    named _ there other otherReceived]

theorem sum_received
    (keyed : coins.txStore.Keyed crate) :
    ((coins.txStore.iter.flatMap
      (fun stored => coins.receivedFrom crate stored.2)).map
        (fun row => row.2.txout.value)).sum =
      totalValue (coins.coinMap crate) := by
  let rows :=
    coins.txStore.iter.flatMap
      (fun stored => coins.receivedFrom crate stored.2)
  have valued :
      ∀ row ∈ rows,
        row.2.txout.value = coinValue (coins.coinMap crate) row.1 := by
    intro row member
    obtain ⟨stored, listed, received⟩ := List.mem_flatMap.mp member
    obtain ⟨output, position, found⟩ := List.mem_filterMap.mp received
    obtain ⟨address, known, rfl⟩ := Option.map_eq_some_iff.mp found
    have present : coins.txStore.get stored.1 = some stored.2 :=
      Std.ExtTreeMap.mem_toList_iff_getElem?_eq_some.mp listed
    have named := keyed _ _ present
    have paid := List.mk_mem_zipIdx_iff_getElem?.mp position
    have watched :
        coins.addressStore.containsSpk output.1.scriptPubkey = true :=
      decide_eq_true (BTreeMap.mem_iff_getElem?.mpr ⟨address, known⟩)
    have output' :
        (coins.storedOutputs crate)[
            (⟨crate.computeTxid stored.2.tx, output.2⟩ : OutPoint)]? =
          some output.1 :=
      (getElem?_storedOutputs keyed _ _).mpr
        ⟨stored.2, by rw [named]; exact present, paid⟩
    rw [coinValue_coinMap keyed, output']
    simp [watched]
  have covered :
      ∀ outpoint, outpoint ∈ coins.coinMap crate →
        outpoint ∈ (rows.map Prod.fst).toFinset := by
    intro outpoint member
    obtain ⟨coin, present⟩ := BTreeMap.mem_iff_getElem?.mp member
    obtain ⟨entry, address, is⟩ :=
      (getElem?_coinMap keyed outpoint coin).mp present
    have named := keyed _ _ is.stored
    rw [List.mem_toFinset, List.mem_map]
    refine ⟨(outpoint, coins.receivedCoin crate entry
      (coin.txout, outpoint.vout) address), List.mem_flatMap.mpr
      ⟨(outpoint.txid, entry),
        Std.ExtTreeMap.mem_toList_iff_getElem?_eq_some.mpr is.stored,
        List.mem_filterMap.mpr ⟨(coin.txout, outpoint.vout),
          List.mk_mem_zipIdx_iff_getElem?.mpr is.paid, ?_⟩⟩, rfl⟩
    dsimp only
    rw [is.known, Option.map_some]
    simp only [named, receivedCoin]
  calc (rows.map (fun row => row.2.txout.value)).sum
      = ((rows.map Prod.fst).map
          (coinValue (coins.coinMap crate))).sum := by
        rw [List.map_map]
        exact congrArg List.sum (List.map_congr_left valued)
    _ = ∑ outpoint ∈ (rows.map Prod.fst).toFinset,
          coinValue (coins.coinMap crate) outpoint :=
        (List.sum_toFinset _ (nodup_received keyed)).symm
    _ = totalValue (coins.coinMap crate) :=
        (BTreeMap.total_eq_sum _ _ covered).symm

theorem coinStatus_ne_spent
    (headerScanner : Bool)
    (inclusion : Inclusion) :
    coinStatus headerScanner inclusion ≠ .spent := by
  cases inclusion <;> cases headerScanner <;>
    simp [coinStatus, Inclusion.coinStatus]

theorem unspentValue_add_spent
    (keyed : coins.txStore.Keyed crate)
    (spentOnce : coins.spentOutpoints.Nodup) :
    unspentValue (coins.coinMap crate) +
        (coins.spentOutpoints.map
          (coinValue (coins.coinMap crate))).sum =
      totalValue (coins.coinMap crate) := by
  classical
  let outpoints :=
    (coins.coinMap crate).keys.toFinset ∪ coins.spentOutpoints.toFinset
  have covered :
      ∀ outpoint, outpoint ∈ coins.coinMap crate →
        outpoint ∈ outpoints :=
    fun outpoint member =>
      Finset.mem_union_left _
        (List.mem_toFinset.mpr (Std.ExtTreeMap.mem_keys.mpr member))
  have left :
      ∀ outpoint,
        (coins.coinMap crate).share
            (fun _ coin =>
              if coin.status = .spent then 0 else coin.txout.value)
            outpoint =
          if outpoint ∈ coins.spentOutpoints then
            0
          else
            coinValue (coins.coinMap crate) outpoint := by
    intro outpoint
    rw [coinValue, BTreeMap.share, BTreeMap.share]
    cases found : (coins.coinMap crate)[outpoint]? with
    | none =>
        simp
    | some coin =>
        obtain ⟨entry, address, is⟩ :=
          (getElem?_coinMap keyed outpoint coin).mp found
        by_cases spends : outpoint ∈ coins.spentOutpoints
        · have spent := is.spent ((mem_spentOutpoints outpoint).mp spends)
          simp [spends, spent]
        · have unspent :=
            is.unspent (fun spent =>
              spends ((mem_spentOutpoints outpoint).mpr spent))
          have shown : coin.status ≠ .spent := by
            rw [unspent]
            exact coinStatus_ne_spent _ _
          simp [spends, shown]
  have spent :
      (coins.spentOutpoints.map (coinValue (coins.coinMap crate))).sum =
        ∑ outpoint ∈ outpoints,
          if outpoint ∈ coins.spentOutpoints then
            coinValue (coins.coinMap crate) outpoint
          else
            0 := by
    rw [← List.sum_toFinset _ spentOnce, ← Finset.sum_filter]
    refine Finset.sum_congr ?_ (fun _ _ => rfl)
    ext outpoint
    simpa [outpoints] using Or.inr
  rw [unspentValue, totalValue, BTreeMap.total_eq_sum _ _ covered,
    BTreeMap.total_eq_sum _ _ covered, spent, ← Finset.sum_add_distrib]
  refine Finset.sum_congr rfl (fun outpoint _ => ?_)
  rw [left]
  by_cases spends : outpoint ∈ coins.spentOutpoints
  · simp [spends, coinValue]
  · simp [spends, coinValue]

theorem txContribution_eq_some
    (txLabels : BTreeMap Txid String)
    {entry : TxEntry}
    (fitsIn : entry.inputsValue ≤ u64Max)
    (fitsOut : entry.outputsValue ≤ u64Max) :
    ∃ contrib,
      coins.txContribution crate txLabels entry = some contrib ∧
        contrib.ownedIn = entry.inputsValue ∧
        contrib.ownedOut = entry.outputsValue := by
  unfold txContribution checkedSum
  unfold TxEntry.inputsValue at fitsIn
  unfold TxEntry.outputsValue at fitsOut
  rw [if_pos fitsIn, if_pos fitsOut]
  exact ⟨_, rfl, rfl, rfl⟩

variable (txLabels : BTreeMap Txid String)

/-- What a scan owns of a transaction, as far as the sums fit. -/
def shareOf
    (crate : TxCrate)
    (txLabels : BTreeMap Txid String)
    (coins : CoinStore Backend)
    (entry : TxEntry) : TxContribution :=
  (coins.txContribution crate txLabels entry).getD .empty

/-- The inputs and outputs ours of every stored transaction fit 64 bits. -/
def SharesFit (coins : CoinStore Backend) : Prop :=
  ∀ entry ∈ coins.txStore.transactions,
    entry.inputsValue ≤ u64Max ∧ entry.outputsValue ≤ u64Max

theorem txContributions_eq_some
    (keyed : coins.txStore.Keyed crate)
    (fits : coins.SharesFit) :
    coins.txContributions crate txLabels =
      some (coins.txStore.store.cache.map
        (fun _ entry => coins.shareOf crate
          txLabels entry)) := by
  have told :
      ∀ entries : List TxEntry,
        (∀ entry ∈ entries, entry ∈ coins.txStore.transactions) →
        entries.mapM (fun entry =>
            (coins.txContribution crate txLabels entry).map
              (fun contrib => (crate.computeTxid entry.tx, contrib))) =
          some (entries.map (fun entry =>
            (crate.computeTxid entry.tx,
              coins.shareOf crate txLabels entry))) := by
    intro entries listed
    induction entries with
    | nil =>
        rfl
    | cons entry rest inductionHypothesis =>
        have here := fits entry (listed entry List.mem_cons_self)
        obtain ⟨contrib, tells, -, -⟩ :=
          txContribution_eq_some
            txLabels here.1 here.2
        rw [List.mapM_cons, inductionHypothesis (fun later member =>
          listed later (List.mem_cons_of_mem _ member)), List.map_cons,
          shareOf, tells]
        rfl
  rw [txContributions, told _ (fun _ member => member), Option.map_some]
  congr 1
  have stored :
      ∀ (txid : Txid) (contrib : TxContribution),
        (txid, contrib) ∈
            coins.txStore.transactions.map (fun entry =>
              (crate.computeTxid entry.tx,
                coins.shareOf crate txLabels
                  entry)) ↔
          ∃ entry, coins.txStore.get txid = some entry ∧
            coins.shareOf crate txLabels entry =
              contrib := by
    intro txid contrib
    rw [List.mem_map]
    constructor
    · rintro ⟨entry, listed, row⟩
      cases row
      exact ⟨entry, get_of_mem_transactions keyed listed, rfl⟩
    · rintro ⟨entry, present, rfl⟩
      refine ⟨entry, List.mem_map.mpr ⟨(txid, entry),
        Std.ExtTreeMap.mem_toList_iff_getElem?_eq_some.mpr present, rfl⟩, ?_⟩
      rw [keyed txid entry present]
  apply Std.ExtTreeMap.ext_getElem?
  intro txid
  apply Option.ext
  intro contrib
  rw [BTreeMap.getElem?_insertAll_of_agree, stored,
    Std.ExtTreeMap.getElem?_map, Option.map_eq_some_iff]
  · rfl
  · intro txid contrib other first second
    obtain ⟨entry, present, rfl⟩ := (stored txid contrib).mp first
    obtain ⟨entry', present', rfl⟩ := (stored txid other).mp second
    rw [present, Option.some.injEq] at present'
    rw [present']

theorem total_net_shares
    (fits : coins.SharesFit) :
    BTreeMap.total
        (coins.txStore.store.cache.map
          (fun _ entry => coins.shareOf crate
            txLabels entry))
        (fun _ contrib => contrib.net) =
      (((coins.txStore.transactions.map TxEntry.outputsValue).sum : Nat) :
          Int) -
        ((coins.txStore.transactions.map TxEntry.inputsValue).sum : Nat) := by
  rw [BTreeMap.total, Std.ExtTreeMap.toList_map, List.map_map,
    TxStore.transactions, TxStore.iter]
  have told :
      ∀ row ∈ coins.txStore.store.cache.toList,
        (coins.shareOf crate txLabels row.2).net =
          (row.2.outputsValue : Int) - row.2.inputsValue := by
    intro row member
    have here := fits row.2 (List.mem_map.mpr ⟨row, member, rfl⟩)
    obtain ⟨contrib, tells, inputs, outputs⟩ :=
      txContribution_eq_some
        txLabels here.1 here.2
    rw [shareOf, tells, Option.getD_some, TxContribution.net, inputs,
      outputs]
  refine (congrArg List.sum (List.map_congr_left told)).trans ?_
  clear told
  generalize coins.txStore.store.cache.toList = rows
  induction rows with
  | nil =>
      rfl
  | cons row rest inductionHypothesis =>
      simp only [List.map_cons, List.sum_cons, inductionHypothesis]
      push_cast
      ring

theorem sum_outputsValue
    (keyed : coins.txStore.Keyed crate)
    (known : coins.HasMetadata crate) :
    (coins.txStore.transactions.map TxEntry.outputsValue).sum =
      totalValue (coins.coinMap crate) := by
  rw [← sum_received keyed, List.map_flatMap, List.flatMap_def,
    List.sum_flatten, TxStore.transactions, List.map_map, List.map_map]
  refine congrArg List.sum (List.map_congr_left (fun stored member => ?_))
  change (stored.2.ownedOutputs.map (fun row => row.1.value)).sum = _
  rw [ownedOutputs_values known (List.mem_map.mpr ⟨stored, member, rfl⟩)]
  rfl

theorem sum_inputsValue
    (keyed : coins.txStore.Keyed crate)
    (known : coins.HasMetadata crate) :
    (coins.txStore.transactions.map TxEntry.inputsValue).sum =
      (coins.spentOutpoints.map (coinValue (coins.coinMap crate))).sum := by
  rw [spentOutpoints, List.map_flatMap, List.flatMap_def, List.sum_flatten,
    TxStore.transactions, List.map_map, List.map_map]
  refine congrArg List.sum (List.map_congr_left (fun stored member => ?_))
  exact sum_ownedInputs keyed known (List.mem_map.mpr ⟨stored, member, rfl⟩)

theorem sharesFit
    (keyed : coins.txStore.Keyed crate)
    (known : coins.HasMetadata crate)
    (spentOnce : coins.spentOutpoints.Nodup)
    (fits : totalValue (coins.coinMap crate) ≤ u64Max) :
    coins.SharesFit := by
  intro entry listed
  have split := unspentValue_add_spent keyed spentOnce
  have inputs :=
    List.le_sum_of_mem (List.mem_map_of_mem (f := TxEntry.inputsValue) listed)
  have outputs :=
    List.le_sum_of_mem (List.mem_map_of_mem (f := TxEntry.outputsValue) listed)
  rw [sum_inputsValue keyed known] at inputs
  rw [sum_outputsValue keyed known] at outputs
  omega

theorem runningTotal_eq_sum (payments : List Payment) :
    runningTotal payments = (payments.map Payment.signed).sum := by
  rw [runningTotal, List.sum_eq_foldl, List.foldl_map]

theorem balance_totals
    (display : Txid → String)
    (coins : CoinStore Backend) :
    (coins.balance crate txLabels display).map
        (fun told => (told.1, runningTotal told.2)) =
      (coins.txContributions crate txLabels).map (fun account =>
        let total := (sumByTxid [account]).total (fun _ sum => sum.net)
        (if total < 0 then 0 else total.toNat % 2 ^ 64, total)) := by
  rw [balance, Option.map_map]
  congr 1
  funext account
  simp only [Function.comp_apply, runningTotal_eq_sum, sum_signed]

theorem balance_of_hasMetadata
    (display : Txid → String)
    (keyed : coins.txStore.Keyed crate)
    (known : coins.HasMetadata crate)
    (spentOnce : coins.spentOutpoints.Nodup)
    (fits : totalValue (coins.coinMap crate) ≤ u64Max) :
    ∃ payments,
      coins.balance crate txLabels display =
          some (unspentValue (coins.coinMap crate), payments) ∧
        runningTotal payments = unspentValue (coins.coinMap crate) := by
  have shares := sharesFit keyed known spentOnce fits
  let account : AccountHistory :=
    coins.txStore.store.cache.map
      (fun _ entry => coins.shareOf crate txLabels entry)
  have told : coins.txContributions crate txLabels = some account :=
    txContributions_eq_some txLabels keyed shares
  have unsaturated : NoSaturation [account] := by
    intro txid
    rw [sharesOf_cons]
    cases present : account[txid]? with
    | none =>
        exact ⟨Nat.zero_le _, Nat.zero_le _⟩
    | some contrib =>
        rw [Std.ExtTreeMap.getElem?_map] at present
        obtain ⟨entry, stored, shape⟩ := Option.map_eq_some_iff.mp present
        have listed : entry ∈ coins.txStore.transactions :=
          List.mem_map.mpr ⟨(txid, entry),
            Std.ExtTreeMap.mem_toList_iff_getElem?_eq_some.mpr stored, rfl⟩
        obtain ⟨contrib', tells, inputs, outputs⟩ :=
          @txContribution_eq_some _ crate _ txLabels _
            (shares entry listed).1 (shares entry listed).2
        rw [shareOf, tells, Option.getD_some] at shape
        subst shape
        have here := shares entry listed
        simp only [sharesOf, Option.toList_some, List.filterMap_nil,
          List.append_nil, List.map_cons, List.map_nil, List.sum_cons,
          List.sum_nil, Nat.add_zero, inputs, outputs]
        exact here
  have total :
      runningTotal (aggregatePayments display [account]) =
        unspentValue (coins.coinMap crate) := by
    have split := unspentValue_add_spent keyed spentOnce
    have nets := @total_net_shares _ crate _ txLabels shares
    rw [runningTotal_eq_sum, sum_signed_eq_net display unsaturated,
      List.map_singleton, List.sum_singleton, nets,
      sum_outputsValue keyed known, sum_inputsValue keyed known]
    omega
  refine ⟨aggregatePayments display [account], ?_, total⟩
  have small : unspentValue (coins.coinMap crate) < 2 ^ 64 := by
    have split := unspentValue_add_spent keyed spentOnce
    rw [u64Max] at fits
    omega
  rw [balance, told, Option.map_some]
  dsimp only
  rw [total, if_neg (by omega),
    Int.toNat_natCast, Nat.mod_eq_of_lt small]

theorem spentOutpoints_generate
    [PersistenceBackend Backend Txid TxEntry]
    (keyed : coins.txStore.Keyed crate) :
    (coins.generate crate).spentOutpoints = coins.spentOutpoints := by
  have inputs :
      ∀ other : CoinStore Backend,
        other.spentOutpoints =
          (other.txStore.store.cache.map
            (fun _ entry => entry.tx)).toList.flatMap
              (fun row => row.2.input.map TxIn.previousOutput) := by
    intro other
    rw [Std.ExtTreeMap.toList_map, List.flatMap_map]
    rfl
  rw [inputs, inputs]
  congr 2
  apply Std.ExtTreeMap.ext_getElem?
  intro txid
  rw [Std.ExtTreeMap.getElem?_map, Std.ExtTreeMap.getElem?_map]
  exact innerGet_generate keyed txid

end Values

/--
After `generate` the balance derived from the payments is the value of the
coins that are not spent, whatever the transactions, as long as no outpoint is
an input twice.
-/
theorem balance_eq_unspent
    [PersistenceBackend Backend Txid TxEntry]
    (crate : TxCrate)
    (txLabels : BTreeMap Txid String)
    (display : Txid → String)
    (coins : CoinStore Backend)
    (keyed : coins.txStore.Keyed crate)
    (spentOnce : coins.spentOutpoints.Nodup)
    (fits : totalValue (coins.coinMap crate) ≤ u64Max) :
    ∃ payments,
      (coins.generate crate).balance crate txLabels display =
          some (unspentValue (coins.generate crate).store, payments) ∧
        runningTotal payments =
          unspentValue (coins.generate crate).store ∧
        0 ≤ runningTotal payments := by
  have generatedKeyed := keyed_generate keyed
  have sameMap :
      (coins.generate crate).coinMap crate = coins.coinMap crate :=
    (sameSources_generate keyed).coinMap_eq generatedKeyed keyed
  obtain ⟨payments, read, total⟩ :=
    balance_of_hasMetadata txLabels display generatedKeyed
      (fun _ listed => withMetadata_generate keyed listed)
      (by rw [spentOutpoints_generate keyed]; exact spentOnce)
      (by rw [sameMap]; exact fits)
  rw [sameMap] at read total
  refine ⟨payments, read, total, ?_⟩
  rw [total]
  exact Int.natCast_nonneg _

/-- A payment of 5 and its spend with a change of 4 leave a balance of 4. -/
theorem balance_eq_unspent_chained :
    ∃ payments,
      (chainedCoins.generate TxCrate.sample).balance TxCrate.sample ∅
          toString =
          some
            (unspentValue (chainedCoins.generate TxCrate.sample).store,
              payments) ∧
        runningTotal payments =
          unspentValue (chainedCoins.generate TxCrate.sample).store ∧
        0 ≤ runningTotal payments :=
  balance_eq_unspent TxCrate.sample ∅ toString chainedCoins
    keyed_chainedCoins (by decide +kernel) (by decide +kernel)

/-- A payment of 10 and a transaction that names it as an input twice. -/
def doubledCoins : CoinStore (RowBackend Txid TxEntry) :=
  { chainedCoins with
    txStore :=
      ⟨RamStore.open_
        { rows :=
            ((∅ : BTreeMap Txid TxEntry).insert 1
              (TxEntry.unconfirmed .sample ⟨2, 1, [], [⟨10, 0⟩]⟩)).insert 2
              (TxEntry.unconfirmed .sample
                ⟨2, 2, [⟨⟨1, 0⟩, 0, 0, []⟩, ⟨⟨1, 0⟩, 0, 1, []⟩], [⟨5, 1⟩]⟩)
          faults := [] }⟩ }

theorem get_doubledCoins
    {txid : Txid}
    {entry : TxEntry}
    (stored : doubledCoins.txStore.get txid = some entry) :
    TxCrate.sample.computeTxid entry.tx = txid ∧
      (entry.tx.input = [] ∨ txid = 2) := by
  have found :
      (((∅ : BTreeMap Txid TxEntry).insert 1
        (TxEntry.unconfirmed .sample ⟨2, 1, [], [⟨10, 0⟩]⟩)).insert 2
        (TxEntry.unconfirmed .sample
          ⟨2, 2, [⟨⟨1, 0⟩, 0, 0, []⟩, ⟨⟨1, 0⟩, 0, 1, []⟩],
            [⟨5, 1⟩]⟩))[txid]? =
        some entry := stored
  rw [BTreeMap.getElem?_insert_eq, BTreeMap.getElem?_insert_eq] at found
  split at found
  · rename_i second
    cases found
    exact ⟨second, .inr second.symm⟩
  · split at found
    · rename_i first
      cases found
      exact ⟨first, .inl rfl⟩
    · simp at found

/--
No outpoint is spent by two stored transactions, yet the input named twice is
taken off twice and the total turns negative.
-/
theorem doubled_input_overdraws :
    doubledCoins.txStore.Keyed TxCrate.sample ∧
      (∀ txid entry txid' entry' outpoint,
        doubledCoins.txStore.get txid = some entry →
        doubledCoins.txStore.get txid' = some entry' →
        outpoint ∈ entry.tx.input.map TxIn.previousOutput →
        outpoint ∈ entry'.tx.input.map TxIn.previousOutput →
          txid = txid') ∧
      totalValue (doubledCoins.coinMap TxCrate.sample) ≤ u64Max ∧
      unspentValue (doubledCoins.generate TxCrate.sample).store = 5 ∧
      ((doubledCoins.generate TxCrate.sample).balance TxCrate.sample ∅
          toString).map (fun told => (told.1, runningTotal told.2)) =
        some (0, -5) := by
  refine ⟨fun txid entry stored => (get_doubledCoins stored).1, ?_,
    by decide +kernel, by decide +kernel,
    by rw [balance_totals]; decide +kernel⟩
  intro txid entry txid' entry' outpoint stored stored' spends spends'
  rcases (get_doubledCoins stored).2 with none | second
  · rw [none] at spends
    cases spends
  · rcases (get_doubledCoins stored').2 with none | second'
    · rw [none] at spends'
      cases spends'
    · rw [second, second']

end CoinStore

end Bwk
