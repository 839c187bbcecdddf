import Bwk.AddressWindow

namespace Bwk

/-!
# What the coins are

`generate` runs over the stored transactions twice: it lists the outputs that
pay watched scripts, then marks those that a stored input names.  Nothing of
the old coin map enters, so what comes out can be said of the stores alone,
whatever the order the transactions are met in.
-/

namespace CoinStore

variable {Backend : Type}

/-- Some stored transaction has the outpoint as an input. -/
def SpendsOutpoint
    (coins : CoinStore Backend)
    (outpoint : OutPoint) : Prop :=
  ∃ txid entry,
    coins.txStore.get txid = some entry ∧
      outpoint ∈ entry.tx.input.map TxIn.previousOutput

/-- The coin of an output that a stored transaction pays to a known script. -/
structure CoinOf
    (coins : CoinStore Backend)
    (outpoint : OutPoint)
    (entry : TxEntry)
    (address : AddressEntry)
    (coin : Coin) : Prop where
  stored : coins.txStore.get outpoint.txid = some entry
  paid : entry.tx.output[outpoint.vout]? = some coin.txout
  known : coins.addressStore.getEntry coin.txout.scriptPubkey = some address
  named : coin.outpoint = outpoint
  height : coin.height = entry.height
  spent : coins.SpendsOutpoint outpoint → coin.status = .spent
  unspent :
    ¬ coins.SpendsOutpoint outpoint →
      coin.status = coinStatus coins.headerScanner entry.inclusion
  label : coin.label = coins.labels[outpoint]?
  path : coin.coinPath = (address.account, address.index)

def receivedCoin
    (crate : TxCrate)
    (coins : CoinStore Backend)
    (entry : TxEntry)
    (output : TxOut × Nat)
    (address : AddressEntry) : Coin where
  txout := output.1
  outpoint := ⟨crate.computeTxid entry.tx, output.2⟩
  height := entry.height
  status := coinStatus coins.headerScanner entry.inclusion
  label := coins.labels[(⟨crate.computeTxid entry.tx, output.2⟩ : OutPoint)]?
  coinPath := (address.account, address.index)

/-- List one output; `none` is the failed script assertion. -/
def receiveOutput
    (crate : TxCrate)
    (coins : CoinStore Backend)
    (entry : TxEntry)
    (received : BTreeMap OutPoint Coin)
    (output : TxOut × Nat) : Option (BTreeMap OutPoint Coin) :=
  match coins.addressStore.getEntry output.1.scriptPubkey with
  | none => some received
  | some address =>
      let spk :=
        coins.addressStore.derivator.scriptAt address.account address.index
      if spk = output.1.scriptPubkey then
        some (received.insert ⟨crate.computeTxid entry.tx, output.2⟩
          (coins.receivedCoin crate entry output address))
      else
        none

/-- The loop as the code runs it, with its assertion. -/
def listReceived
    (crate : TxCrate)
    (coins : CoinStore Backend) : Option (BTreeMap OutPoint Coin) :=
  coins.txStore.iter.foldlM
    (fun received stored =>
      stored.2.tx.output.zipIdx.foldlM
        (coins.receiveOutput crate stored.2) received)
    ∅

variable {crate : TxCrate} {coins : CoinStore Backend}

theorem receiveOutput_eq
    (entry : TxEntry)
    (received : BTreeMap OutPoint Coin)
    (output : TxOut × Nat) :
    coins.receiveOutput crate entry received output =
      some
        (match
            (coins.addressStore.getEntry output.1.scriptPubkey).map
              (fun address =>
                ((⟨crate.computeTxid entry.tx, output.2⟩ : OutPoint),
                  coins.receivedCoin crate entry output address)) with
        | none => received
        | some row => received.insert row.1 row.2) := by
  unfold receiveOutput
  cases found : coins.addressStore.getEntry output.1.scriptPubkey with
  | none =>
      rfl
  | some address =>
      have derived :=
        coins.addressStore.derived output.1.scriptPubkey address found
      simp [derived]

private theorem foldlM_eq_some
    {State Item : Type}
    {round : State → Item → Option State}
    {plain : State → Item → State}
    (goesOn : ∀ state item, round state item = some (plain state item))
    (items : List Item)
    (state : State) :
    items.foldlM round state = some (items.foldl plain state) := by
  induction items generalizing state with
  | nil =>
      rfl
  | cons item rest inductionHypothesis =>
      rw [List.foldlM_cons, goesOn]
      exact inductionHypothesis (plain state item)

theorem listReceived_eq :
    coins.listReceived crate = some (coins.receivedCoins crate) := by
  have perEntry :
      ∀ (received : BTreeMap OutPoint Coin) (stored : Txid × TxEntry),
        stored.2.tx.output.zipIdx.foldlM
            (coins.receiveOutput crate stored.2) received =
          some (received.insertAll (coins.receivedFrom crate stored.2)) := by
    intro received stored
    rw [foldlM_eq_some (receiveOutput_eq stored.2), receivedFrom,
      BTreeMap.insertAll, List.foldl_filterMap]
    congr 2
    funext received output
    cases found :
        coins.addressStore.getEntry output.1.scriptPubkey <;>
      simp [found, receivedCoin]
  rw [listReceived, foldlM_eq_some perEntry, receivedCoins,
    BTreeMap.insertAll, List.foldl_flatMap]
  rfl

theorem getElem?_receivedCoins
    (keyed : coins.txStore.Keyed crate)
    (outpoint : OutPoint)
    (coin : Coin) :
    (coins.receivedCoins crate)[outpoint]? = some coin ↔
      ∃ entry txout address,
        coins.txStore.get outpoint.txid = some entry ∧
          entry.tx.output[outpoint.vout]? = some txout ∧
          coins.addressStore.getEntry txout.scriptPubkey = some address ∧
          coin =
            coins.receivedCoin crate entry (txout, outpoint.vout)
              address := by
  have listed :
      ∀ (outpoint : OutPoint) (coin : Coin),
        (outpoint, coin) ∈
            coins.txStore.iter.flatMap
              (fun stored => coins.receivedFrom crate stored.2) ↔
          ∃ entry txout address,
            coins.txStore.get outpoint.txid = some entry ∧
              entry.tx.output[outpoint.vout]? = some txout ∧
              coins.addressStore.getEntry txout.scriptPubkey =
                some address ∧
              coin =
                coins.receivedCoin crate entry (txout, outpoint.vout)
                  address := by
    intro outpoint coin
    simp only [List.mem_flatMap, receivedFrom, List.mem_filterMap,
      Option.map_eq_some_iff, Prod.mk.injEq]
    constructor
    · rintro ⟨⟨txid, entry⟩, member, ⟨txout, vout⟩, inOutputs, address,
        found, rfl, rfl⟩
      have stored : coins.txStore.get txid = some entry :=
        Std.ExtTreeMap.mem_toList_iff_getElem?_eq_some.mp member
      refine ⟨entry, txout, address, ?_,
        List.mk_mem_zipIdx_iff_getElem?.mp inOutputs, found, rfl⟩
      rw [keyed txid entry stored]
      exact stored
    · rintro ⟨entry, txout, address, stored, paid, found, rfl⟩
      refine ⟨(outpoint.txid, entry),
        Std.ExtTreeMap.mem_toList_iff_getElem?_eq_some.mpr stored,
        (txout, outpoint.vout), List.mk_mem_zipIdx_iff_getElem?.mpr paid,
        address, found, ?_, rfl⟩
      simp only [keyed _ _ stored]
  rw [receivedCoins, BTreeMap.getElem?_insertAll_of_agree, listed]
  -- An outpoint determines its transaction, its output and its address.
  intro outpoint coin other first second
  obtain ⟨entry, txout, address, stored, paid, found, rfl⟩ :=
    (listed _ _).mp first
  obtain ⟨entry', txout', address', stored', paid', found', rfl⟩ :=
    (listed _ _).mp second
  rw [stored, Option.some.injEq] at stored'
  subst stored'
  rw [paid, Option.some.injEq] at paid'
  subst paid'
  rw [found, Option.some.injEq] at found'
  rw [found']

variable (coinMap : BTreeMap OutPoint Coin) (spk : ScriptBuf)
variable (outpoint : OutPoint)

theorem mem_spentOutpoints :
    outpoint ∈ coins.spentOutpoints ↔ coins.SpendsOutpoint outpoint := by
  rw [spentOutpoints, List.mem_flatMap]
  constructor
  · rintro ⟨⟨txid, entry⟩, member, input⟩
    exact ⟨txid, entry,
      Std.ExtTreeMap.mem_toList_iff_getElem?_eq_some.mp member, input⟩
  · rintro ⟨txid, entry, stored, input⟩
    exact ⟨(txid, entry),
      Std.ExtTreeMap.mem_toList_iff_getElem?_eq_some.mpr stored, input⟩

theorem getElem?_foldl_markSpent
    (received : BTreeMap OutPoint Coin)
    (outpoints : List OutPoint)
    (outpoint : OutPoint) :
    (outpoints.foldl markSpent received)[outpoint]? =
      if outpoint ∈ outpoints then
        (received[outpoint]?).map
          (fun coin => { coin with status := .spent })
      else
        received[outpoint]? := by
  induction outpoints generalizing received with
  | nil =>
      simp
  | cons first rest inductionHypothesis =>
      have marked :
          (markSpent received first)[outpoint]? =
            if first = outpoint then
              (received[outpoint]?).map
                (fun coin => { coin with status := .spent })
            else
              received[outpoint]? := by
        rw [markSpent, Std.ExtTreeMap.getElem?_modify]
        by_cases same : first = outpoint
        · simp [same]
        · simp [same]
      rw [List.foldl_cons, inductionHypothesis, marked]
      by_cases later : outpoint ∈ rest
      · rw [if_pos later, if_pos (List.mem_cons_of_mem _ later)]
        split
        · rw [Option.map_map]
          rfl
        · rfl
      · rw [if_neg later]
        by_cases same : first = outpoint
        · rw [if_pos same, if_pos (by simp [same])]
        · rw [if_neg same, if_neg]
          simp only [List.mem_cons, not_or]
          exact ⟨Ne.symm same, later⟩

theorem getElem?_coinMap
    (keyed : coins.txStore.Keyed crate)
    (outpoint : OutPoint)
    (coin : Coin) :
    (coins.coinMap crate)[outpoint]? = some coin ↔
      ∃ entry address, coins.CoinOf outpoint entry address coin := by
  have named :
      ∀ entry, coins.txStore.get outpoint.txid = some entry →
        (⟨crate.computeTxid entry.tx, outpoint.vout⟩ : OutPoint) =
          outpoint :=
    fun entry stored => by rw [keyed _ entry stored]
  have received := getElem?_receivedCoins keyed outpoint
  rw [coinMap, getElem?_foldl_markSpent]
  by_cases spends : coins.SpendsOutpoint outpoint
  · rw [if_pos ((mem_spentOutpoints outpoint).mpr spends),
      Option.map_eq_some_iff]
    constructor
    · rintro ⟨before, present, rfl⟩
      obtain ⟨entry, txout, address, stored, paid, found, rfl⟩ :=
        (received before).mp present
      exact ⟨entry, address, stored, paid, found, named entry stored, rfl,
        fun _ => rfl, fun unspent => (unspent spends).elim,
        by rw [receivedCoin, named entry stored], rfl⟩
    · rintro ⟨entry, address, is⟩
      refine ⟨coins.receivedCoin crate entry (coin.txout, outpoint.vout)
        address, (received _).mpr
          ⟨entry, coin.txout, address, is.stored, is.paid, is.known, rfl⟩,
        ?_⟩
      cases coin
      simp only [receivedCoin, named entry is.stored, Coin.mk.injEq]
      exact ⟨trivial, is.named.symm, is.height.symm, (is.spent spends).symm,
        is.label.symm, is.path.symm⟩
  · rw [if_neg (fun listed =>
      spends ((mem_spentOutpoints outpoint).mp listed))]
    constructor
    · intro present
      obtain ⟨entry, txout, address, stored, paid, found, rfl⟩ :=
        (received coin).mp present
      exact ⟨entry, address, stored, paid, found, named entry stored, rfl,
        fun spent => (spends spent).elim, fun _ => rfl,
        by rw [receivedCoin, named entry stored], rfl⟩
    · rintro ⟨entry, address, is⟩
      refine (received coin).mpr
        ⟨entry, coin.txout, address, is.stored, is.paid, is.known, ?_⟩
      cases coin
      simp only [receivedCoin, named entry is.stored, Coin.mk.injEq]
      exact ⟨trivial, is.named, is.height, is.unspent spends, is.label,
        is.path⟩

theorem mem_outpointsBySpk_foldl
    (rows : List (OutPoint × Coin))
    (index : BTreeMap ScriptBuf (BTreeSet OutPoint)) :
    outpoint ∈
        (rows.foldl
          (fun index (outpoint, coin) =>
            index.insert coin.spk
              ((index[coin.spk]?.getD ∅).insert outpoint))
          index)[spk]?.getD ∅ ↔
      outpoint ∈ index[spk]?.getD ∅ ∨
        ∃ coin, (outpoint, coin) ∈ rows ∧ coin.spk = spk := by
  induction rows generalizing index with
  | nil =>
      simp
  | cons row rest inductionHypothesis =>
      obtain ⟨first, coin⟩ := row
      rw [List.foldl_cons, inductionHypothesis]
      simp only [BTreeMap.getElem?_insert_eq]
      by_cases same : coin.spk = spk
      · subst same
        simp only [↓reduceIte, Option.getD_some, BTreeSet.mem_insert_eq,
          List.mem_cons, Prod.mk.injEq]
        aesop
      · rw [if_neg same]
        simp only [List.mem_cons, Prod.mk.injEq]
        aesop

theorem mem_outpointsBySpk :
    outpoint ∈ (outpointsBySpk coinMap)[spk]?.getD ∅ ↔
      ∃ coin, coinMap[outpoint]? = some coin ∧ coin.spk = spk := by
  rw [outpointsBySpk, mem_outpointsBySpk_foldl]
  simp [Std.ExtTreeMap.mem_toList_iff_getElem?_eq_some]

theorem outpointsBySpk_foldl_nonempty
    (rows : List (OutPoint × Coin))
    (index : BTreeMap ScriptBuf (BTreeSet OutPoint))
    (nonempty :
      ∀ (spk : ScriptBuf) outpoints, index[spk]? = some outpoints →
        ∃ outpoint, outpoint ∈ outpoints)
    (spk : ScriptBuf)
    (outpoints : BTreeSet OutPoint)
    (listed :
      (rows.foldl
        (fun index (outpoint, coin) =>
          index.insert coin.spk
            ((index[coin.spk]?.getD ∅).insert outpoint))
        index)[spk]? = some outpoints) :
    ∃ outpoint, outpoint ∈ outpoints := by
  induction rows generalizing index with
  | nil =>
      exact nonempty spk outpoints listed
  | cons row rest inductionHypothesis =>
      refine inductionHypothesis _ ?_ listed
      intro query found present
      rw [BTreeMap.getElem?_insert_eq] at present
      split at present
      · cases present
        exact ⟨row.1, BTreeSet.mem_insert_eq.mpr (.inl rfl)⟩
      · exact nonempty query found present

theorem outpointsBySpk_nonempty
    (outpoints : BTreeSet OutPoint)
    (listed : (outpointsBySpk coinMap)[spk]? = some outpoints) :
    ∃ outpoint, outpoint ∈ outpoints := by
  refine outpointsBySpk_foldl_nonempty coinMap.toList ∅ ?_ spk outpoints
    listed
  intro query found present
  rw [Std.ExtTreeMap.getElem?_empty] at present
  cases present

/-- The stores agree on all that the coins are computed from. -/
structure SameSources (coins other : CoinStore Backend) : Prop where
  entries :
    ∀ txid,
      (coins.txStore.get txid).map TxEntry.bare =
        (other.txStore.get txid).map TxEntry.bare
  paths :
    ∀ spk,
      (coins.addressStore.getEntry spk).map
          (fun address => (address.account, address.index)) =
        (other.addressStore.getEntry spk).map
          (fun address => (address.account, address.index))
  headerScanner : coins.headerScanner = other.headerScanner
  labels : coins.labels = other.labels

namespace SameSources

variable {other : CoinStore Backend}

theorem symm (same : SameSources coins other) : SameSources other coins :=
  ⟨fun txid => (same.entries txid).symm, fun spk => (same.paths spk).symm,
    same.headerScanner.symm, same.labels.symm⟩

theorem entry
    (same : SameSources coins other)
    {txid : Txid}
    {entry : TxEntry}
    (stored : coins.txStore.get txid = some entry) :
    ∃ entry', other.txStore.get txid = some entry' ∧
      entry'.tx = entry.tx ∧ entry'.inclusion = entry.inclusion := by
  have alike := same.entries txid
  rw [stored, Option.map_some] at alike
  obtain ⟨entry', stored', bare⟩ := Option.map_eq_some_iff.mp alike.symm
  simp only [TxEntry.bare, TxEntry.mk.injEq] at bare
  exact ⟨entry', stored', bare.1, bare.2.1⟩

theorem spends
    (same : SameSources coins other)
    {outpoint : OutPoint}
    (spent : coins.SpendsOutpoint outpoint) :
    other.SpendsOutpoint outpoint := by
  obtain ⟨txid, entry, stored, input⟩ := spent
  obtain ⟨entry', stored', sameTx, -⟩ := same.entry stored
  exact ⟨txid, entry', stored', sameTx ▸ input⟩

theorem coinOf
    (same : SameSources coins other)
    {outpoint : OutPoint}
    {entry : TxEntry}
    {address : AddressEntry}
    {coin : Coin}
    (is : coins.CoinOf outpoint entry address coin) :
    ∃ entry' address', other.CoinOf outpoint entry' address' coin := by
  obtain ⟨entry', stored, sameTx, sameInclusion⟩ := same.entry is.stored
  have path := same.paths coin.txout.scriptPubkey
  rw [is.known, Option.map_some] at path
  obtain ⟨address', known, samePath⟩ :=
    Option.map_eq_some_iff.mp path.symm
  refine ⟨entry', address', stored, sameTx ▸ is.paid, known, is.named, ?_,
    fun spent => is.spent (same.symm.spends spent), ?_,
    same.labels ▸ is.label, samePath ▸ is.path⟩
  · rw [is.height, TxEntry.height, TxEntry.height, sameInclusion]
  · intro unspent
    rw [sameInclusion, ← same.headerScanner]
    exact is.unspent (fun spent => unspent (same.spends spent))

theorem coinMap_eq
    (same : SameSources coins other)
    (keyed : coins.txStore.Keyed crate)
    (otherKeyed : other.txStore.Keyed crate) :
    coins.coinMap crate = other.coinMap crate := by
  apply Std.ExtTreeMap.ext_getElem?
  intro outpoint
  apply Option.ext
  intro coin
  rw [getElem?_coinMap keyed, getElem?_coinMap otherKeyed]
  constructor
  · rintro ⟨entry, address, is⟩
    exact same.coinOf is
  · rintro ⟨entry, address, is⟩
    exact same.symm.coinOf is

end SameSources

theorem mem_storedOutputs
    (keyed : coins.txStore.Keyed crate)
    {outpoint : OutPoint}
    {txout : TxOut} :
    (outpoint, txout) ∈
        coins.txStore.transactions.flatMap (fun entry =>
          entry.tx.output.zipIdx.map (fun (txout, vout) =>
            ((⟨crate.computeTxid entry.tx, vout⟩ : OutPoint), txout))) ↔
      ∃ entry, coins.txStore.get outpoint.txid = some entry ∧
        entry.tx.output[outpoint.vout]? = some txout := by
  simp only [List.mem_flatMap, List.mem_map, TxStore.transactions,
    Prod.mk.injEq]
  constructor
  · rintro ⟨_, ⟨⟨txid, entry⟩, member, rfl⟩, ⟨paid, vout⟩, inOutputs,
      rfl, rfl⟩
    have stored : coins.txStore.get txid = some entry :=
      Std.ExtTreeMap.mem_toList_iff_getElem?_eq_some.mp member
    refine ⟨entry, ?_, List.mk_mem_zipIdx_iff_getElem?.mp inOutputs⟩
    rw [keyed txid entry stored]
    exact stored
  · rintro ⟨entry, stored, paid⟩
    refine ⟨entry, ⟨(outpoint.txid, entry),
      Std.ExtTreeMap.mem_toList_iff_getElem?_eq_some.mpr stored, rfl⟩,
      (txout, outpoint.vout), List.mk_mem_zipIdx_iff_getElem?.mpr paid,
      ?_, rfl⟩
    rw [keyed _ _ stored]

theorem getElem?_storedOutputs
    (keyed : coins.txStore.Keyed crate)
    (outpoint : OutPoint)
    (txout : TxOut) :
    (coins.storedOutputs crate)[outpoint]? = some txout ↔
      ∃ entry, coins.txStore.get outpoint.txid = some entry ∧
        entry.tx.output[outpoint.vout]? = some txout := by
  rw [storedOutputs, BTreeMap.getElem?_insertAll_of_agree,
    mem_storedOutputs keyed]
  intro outpoint txout other first second
  obtain ⟨entry, stored, paid⟩ := (mem_storedOutputs keyed).mp first
  obtain ⟨entry', stored', paid'⟩ := (mem_storedOutputs keyed).mp second
  rw [stored, Option.some.injEq] at stored'
  rw [← stored', paid, Option.some.injEq] at paid'
  exact paid'

theorem storedOutputs_congr
    {other : CoinStore Backend}
    (keyed : coins.txStore.Keyed crate)
    (otherKeyed : other.txStore.Keyed crate)
    (entries :
      ∀ txid,
        (coins.txStore.get txid).map TxEntry.bare =
          (other.txStore.get txid).map TxEntry.bare) :
    coins.storedOutputs crate = other.storedOutputs crate := by
  have outputs :
      ∀ txid,
        (coins.txStore.get txid).map (fun entry => entry.tx.output) =
          (other.txStore.get txid).map (fun entry => entry.tx.output) := by
    intro txid
    have alike :=
      congrArg (Option.map (fun entry => entry.tx.output)) (entries txid)
    rwa [Option.map_map, Option.map_map] at alike
  apply Std.ExtTreeMap.ext_getElem?
  intro outpoint
  apply Option.ext
  intro txout
  rw [getElem?_storedOutputs keyed, getElem?_storedOutputs otherKeyed]
  have alike := outputs outpoint.txid
  cases here : coins.txStore.get outpoint.txid <;>
    cases there : other.txStore.get outpoint.txid <;>
      simp_all

theorem coinEvents_self (coinMap : BTreeMap OutPoint Coin) :
    coinEvents coinMap coinMap = [] := by
  rw [coinEvents, List.append_eq_nil_iff]
  constructor
  · rw [List.flatMap_eq_nil_iff]
    rintro ⟨outpoint, coin⟩ member
    have present : coinMap[outpoint]? = some coin :=
      Std.ExtTreeMap.mem_toList_iff_getElem?_eq_some.mp member
    simp [present]
  · rw [List.filterMap_eq_nil_iff]
    rintro ⟨outpoint, coin⟩ member
    have present : outpoint ∈ coinMap :=
      BTreeMap.mem_iff_getElem?.mpr
        ⟨coin, Std.ExtTreeMap.mem_toList_iff_getElem?_eq_some.mp member⟩
    simp [present]

theorem getEntry_setUsage
    (addresses : AddressStore)
    (spk query : ScriptBuf)
    (status : AddressStatus)
    (fundingTxids spendingTxids : BTreeSet Txid) :
    (addresses.setUsage spk status fundingTxids spendingTxids).getEntry
        query =
      if spk = query then
        (addresses.getEntry query).map (fun entry =>
          { entry with
            status := status
            fundingTxids := fundingTxids
            spendingTxids := spendingTxids })
      else
        addresses.getEntry query := by
  unfold AddressStore.setUsage
  split
  · rename_i absent
    split
    · rename_i same
      rw [← same, AddressStore.getEntry, absent]
      rfl
    · rfl
  · rename_i entry present
    simp only [AddressStore.getEntry, BTreeMap.getElem?_insert_eq]
    split
    · rename_i same
      rw [← same, present]
      rfl
    · rfl

theorem getEntry_updateAddresses
    (coins : CoinStore Backend)
    (coinMap : BTreeMap OutPoint Coin)
    (query : ScriptBuf) :
    (coins.updateAddresses coinMap).getEntry query =
      if query ∈ Std.ExtTreeSet.ofList
          (coinMap.toList.map (fun row => row.2.spk)) then
        (coins.addressStore.getEntry query).map (fun entry =>
          { entry with
            status := usage coinMap query
            fundingTxids := fundingTxids coinMap query
            spendingTxids := coins.spendingTxids coinMap query })
      else
        coins.addressStore.getEntry query := by
  let record (addresses : AddressStore) (spk : ScriptBuf) : AddressStore :=
    addresses.setUsage spk (usage coinMap spk) (fundingTxids coinMap spk)
      (coins.spendingTxids coinMap spk)
  let recorded (spk : ScriptBuf) (found : Option AddressEntry) :
      Option AddressEntry :=
    found.map (fun entry =>
      { entry with
        status := usage coinMap spk
        fundingTxids := fundingTxids coinMap spk
        spendingTxids := coins.spendingTxids coinMap spk })
  refine BTreeSet.look_foldl_toList _ record AddressStore.getEntry recorded
    ?_ ?_ coins.addressStore query
  · intro addresses spk
    exact (getEntry_setUsage addresses spk spk _ _ _).trans (if_pos rfl)
  · intro addresses spk query different
    exact (getEntry_setUsage addresses spk query _ _ _).trans
      (if_neg different)

theorem addressStore_ext
    {first second : AddressStore}
    (same : first.SameWindow second)
    (entries : ∀ spk, first.getEntry spk = second.getEntry spk) :
    first = second := by
  have store : first.store = second.store :=
    Std.ExtTreeMap.ext_getElem? (fun {spk} => entries spk)
  have receiveTip := same.generatedTip .receive
  have changeTip := same.generatedTip .change
  have derivator := same.derivator
  have lookAhead := same.lookAhead
  cases first
  cases second
  simp only [AddressStore.generatedTip] at receiveTip changeTip
  simp only [AddressStore.mk.injEq]
  exact ⟨derivator, store, receiveTip, changeTip, lookAhead⟩

theorem updateAddresses_again
    {after : CoinStore Backend}
    {coinMap : BTreeMap OutPoint Coin}
    (recorded : after.addressStore = coins.updateAddresses coinMap)
    (spending :
      ∀ spk,
        after.spendingTxids coinMap spk =
          coins.spendingTxids coinMap spk) :
    after.updateAddresses coinMap = after.addressStore := by
  refine addressStore_ext (sameWindow_updateAddresses after coinMap) ?_
  intro spk
  rw [getEntry_updateAddresses, recorded, getEntry_updateAddresses,
    spending]
  split
  · rw [Option.map_map]
    rfl
  · rfl

theorem spendingTxids_congr
    {other : CoinStore Backend}
    (same : SameSources coins other)
    (coinMap : BTreeMap OutPoint Coin)
    (spk : ScriptBuf) :
    coins.spendingTxids coinMap spk = other.spendingTxids coinMap spk := by
  have listed :
      ∀ (first second : CoinStore Backend), SameSources first second →
        ∀ txid, txid ∈ first.spendingTxids coinMap spk →
          txid ∈ second.spendingTxids coinMap spk := by
    intro first second same txid member
    simp only [spendingTxids, Std.ExtTreeSet.mem_ofList,
      List.contains_iff_mem, List.mem_map, List.mem_filter,
      Prod.exists] at member ⊢
    obtain ⟨_, entry, ⟨inStore, spends⟩, rfl⟩ := member
    obtain ⟨entry', stored, sameTx, -⟩ :=
      same.entry (Std.ExtTreeMap.mem_toList_iff_getElem?_eq_some.mp inStore)
    exact ⟨_, entry',
      ⟨Std.ExtTreeMap.mem_toList_iff_getElem?_eq_some.mpr stored,
        sameTx ▸ spends⟩, rfl⟩
  apply Std.ExtTreeSet.ext_mem
  intro txid
  exact ⟨listed coins other same txid, listed other coins same.symm txid⟩

theorem populateTxMetadata_eq_self
    (known :
      ∀ entry ∈ coins.txStore.transactions,
        coins.withMetadata (coins.storedOutputs crate) entry = entry) :
    coins.populateTxMetadata crate = coins := by
  have unchanged :
      ∀ entries : List TxEntry,
        (∀ entry ∈ entries,
          coins.withMetadata (coins.storedOutputs crate) entry = entry) →
        entries.foldl
            (fun txs entry =>
              let known :=
                coins.withMetadata (coins.storedOutputs crate) entry
              if entry.outputs ≠ known.outputs ∨
                  entry.inputs ≠ known.inputs then
                txs.update crate known
              else
                txs)
            coins.txStore =
          coins.txStore := by
    intro entries upToDate
    induction entries with
    | nil =>
        rfl
    | cons entry rest inductionHypothesis =>
        have here := upToDate entry List.mem_cons_self
        rw [List.foldl_cons]
        dsimp only
        rw [here, if_neg (by simp)]
        exact inductionHypothesis
          (fun later listed => upToDate later (List.mem_cons_of_mem _ listed))
  rw [populateTxMetadata]
  dsimp only
  rw [unchanged coins.txStore.transactions known]

variable [PersistenceBackend Backend Txid TxEntry]

theorem sameSources_generate
    (keyed : coins.txStore.Keyed crate) :
    SameSources (coins.generate crate) coins := by
  refine ⟨bare_generate keyed, fun spk => ?_, rfl, rfl⟩
  rw [show (coins.generate crate).addressStore =
    coins.updateAddresses (coins.coinMap crate) from rfl,
    getEntry_updateAddresses]
  split
  · rw [Option.map_map]
    rfl
  · rfl

theorem keyed_generate
    (keyed : coins.txStore.Keyed crate) :
    (coins.generate crate).txStore.Keyed crate :=
  (shrinks_generate keyed).keyed keyed

theorem withMetadata_generate
    (keyed : coins.txStore.Keyed crate)
    {entry : TxEntry}
    (listed : entry ∈ (coins.generate crate).txStore.transactions) :
    (coins.generate crate).withMetadata
        ((coins.generate crate).storedOutputs crate) entry =
      entry := by
  let base : CoinStore Backend :=
    { coins with
      store := coins.coinMap crate
      spkToOutpoint := outpointsBySpk (coins.coinMap crate)
      addressStore := coins.updateAddresses (coins.coinMap crate) }
  have baseKeyed : base.txStore.Keyed crate := keyed
  have stored := get_of_mem_transactions (keyed_generate keyed) listed
  have populated :
      (coins.generate crate).txStore.get (crate.computeTxid entry.tx) =
        (base.txStore.get (crate.computeTxid entry.tx)).map
          (base.withMetadata (base.storedOutputs crate)) := by
    rw [← get_populateTxMetadata baseKeyed]
    exact TxStore.get_persist _ _
  rw [stored] at populated
  obtain ⟨before, -, shape⟩ := Option.map_eq_some_iff.mp populated.symm
  have sameOutputs :
      (coins.generate crate).storedOutputs crate =
        base.storedOutputs crate :=
    storedOutputs_congr (keyed_generate keyed) baseKeyed
      (bare_generate keyed)
  rw [sameOutputs, ← shape]
  rfl

theorem generate_again
    (keyed : coins.txStore.Keyed crate) :
    (coins.generate crate).generate crate =
      { coins.generate crate with
        txStore := (coins.generate crate).txStore.persist
        events := (coins.generate crate).events ++ [.coinUpdate] } := by
  have same := @sameSources_generate _ crate coins _ keyed
  have sameMap :
      (coins.generate crate).coinMap crate = coins.coinMap crate :=
    same.coinMap_eq (keyed_generate keyed) keyed
  have sameAddresses :
      (coins.generate crate).updateAddresses (coins.coinMap crate) =
        (coins.generate crate).addressStore :=
    updateAddresses_again rfl
      (spendingTxids_congr same (coins.coinMap crate))
  have settled :
      (coins.generate crate).populateTxMetadata crate =
        coins.generate crate :=
    populateTxMetadata_eq_self
      (fun entry listed => withMetadata_generate keyed listed)
  have recomputed :
      (coins.generate crate).generate crate =
        { (coins.generate crate).populateTxMetadata crate with
          txStore :=
            ((coins.generate crate).populateTxMetadata crate).txStore.persist
          generated := true
          events :=
            (coins.generate crate).events ++
              coinEvents (coins.coinMap crate) (coins.coinMap crate) ++
              [.coinUpdate] } := by
    conv_lhs => rw [generate, sameMap, sameAddresses]
    rfl
  rw [recomputed, settled, coinEvents_self, List.append_nil]
  rfl

/-- `generate` makes the coins an exact function of the stores. -/
structure GeneratesExactly
    (crate : TxCrate)
    (coins : CoinStore Backend) : Prop where
  asserted : coins.listReceived crate = some (coins.receivedCoins crate)
  declared :
    ∀ (outpoint : OutPoint) (coin : Coin),
      (coins.generate crate).store[outpoint]? = some coin ↔
        ∃ entry address, coins.CoinOf outpoint entry address coin
  received :
    ∀ (outpoint : OutPoint) entry txout address,
      coins.txStore.get outpoint.txid = some entry →
      entry.tx.output[outpoint.vout]? = some txout →
      coins.addressStore.getEntry txout.scriptPubkey = some address →
        ∃ coin,
          (coins.generate crate).store[outpoint]? = some coin ∧
            coin.txout = txout ∧ coins.CoinOf outpoint entry address coin
  inverse :
    ∀ (spk : ScriptBuf) (outpoint : OutPoint),
      outpoint ∈ (coins.generate crate).spkToOutpoint[spk]?.getD ∅ ↔
        ∃ coin,
          (coins.generate crate).store[outpoint]? = some coin ∧
            coin.spk = spk
  noneEmpty :
    ∀ (spk : ScriptBuf) outpoints,
      (coins.generate crate).spkToOutpoint[spk]? = some outpoints →
        ∃ outpoint, outpoint ∈ outpoints
  again :
    (coins.generate crate).generate crate =
      { coins.generate crate with
        txStore := (coins.generate crate).txStore.persist
        events := (coins.generate crate).events ++ [.coinUpdate] }
  sameTxs :
    ∀ txid,
      ((coins.generate crate).generate crate).txStore.get txid =
        (coins.generate crate).txStore.get txid

/--
Whatever the coin map was before, `generate` makes it the declared coins of
the stores, indexes it by script, and has nothing left to do a second time.
-/
theorem generate_exact
    (crate : TxCrate)
    (coins : CoinStore Backend)
    (keyed : coins.txStore.Keyed crate) :
    coins.GeneratesExactly crate where
  asserted := listReceived_eq
  declared := getElem?_coinMap keyed
  received := by
    intro outpoint entry txout address stored paid known
    classical
    let coin : Coin :=
      { txout := txout
        outpoint := outpoint
        height := entry.height
        status :=
          if coins.SpendsOutpoint outpoint then
            .spent
          else
            coinStatus coins.headerScanner entry.inclusion
        label := coins.labels[outpoint]?
        coinPath := (address.account, address.index) }
    have is : coins.CoinOf outpoint entry address coin :=
      ⟨stored, paid, known, rfl, rfl, fun spends => if_pos spends,
        fun unspent => if_neg unspent, rfl, rfl⟩
    exact ⟨coin, (getElem?_coinMap keyed outpoint coin).mpr
      ⟨entry, address, is⟩, rfl, is⟩
  inverse := mem_outpointsBySpk (coins.coinMap crate)
  noneEmpty := outpointsBySpk_nonempty (coins.coinMap crate)
  again := generate_again keyed
  sameTxs := by
    intro txid
    rw [generate_again keyed]
    exact TxStore.get_persist _ _

/-- A payment to the first receive script and its spend to change. -/
def chainedCoins : CoinStore (RowBackend Txid TxEntry) where
  store := ∅
  spkToOutpoint := ∅
  labels := ∅
  addressStore := AddressStore.sample
  txStore :=
    ⟨RamStore.open_
      { rows :=
          ((∅ : BTreeMap Txid TxEntry).insert 1
            (TxEntry.unconfirmed .sample ⟨2, 1, [], [⟨5, 0⟩]⟩)).insert 2
            (TxEntry.unconfirmed .sample
              ⟨2, 2, [⟨⟨1, 0⟩, 0, 0, []⟩], [⟨4, 1⟩]⟩)
        faults := [] }⟩
  spkHistory := ∅
  updates := []
  generated := false
  pendingClaims := ∅
  merkleInFlight := ∅
  headerScanner := false
  events := []

theorem keyed_chainedCoins :
    chainedCoins.txStore.Keyed TxCrate.sample := by
  intro txid entry stored
  have found :
      (((∅ : BTreeMap Txid TxEntry).insert 1
        (TxEntry.unconfirmed .sample ⟨2, 1, [], [⟨5, 0⟩]⟩)).insert 2
        (TxEntry.unconfirmed .sample
          ⟨2, 2, [⟨⟨1, 0⟩, 0, 0, []⟩], [⟨4, 1⟩]⟩))[txid]? =
        some entry := stored
  rw [BTreeMap.getElem?_insert_eq, BTreeMap.getElem?_insert_eq] at found
  split at found
  · rename_i second
    cases found
    exact second
  · split at found
    · rename_i first
      cases found
      exact first
    · simp at found

/-- Of the two coins the first is spent. -/
theorem generate_exact_chained :
    chainedCoins.GeneratesExactly TxCrate.sample :=
  generate_exact TxCrate.sample chainedCoins keyed_chainedCoins

example :
    ((chainedCoins.generate TxCrate.sample).store.toList.map
        (fun row => (row.1, row.2.status))) =
      [(⟨1, 0⟩, .spent), (⟨2, 0⟩, .unconfirmed)] := by
  decide +kernel

end CoinStore

end Bwk
