import Bwk.PaymentHistory

namespace Bwk

/-!
# Payments are additive over accounts

The sum at a transaction is a fold of the shares the accounts tell of it, and
every field a direction depends on is read off the fold without its order.  So
neither the order of the accounts nor the way one account's ownership is spread
over several shows in a payment.
-/

/-- The shares the accounts tell of a transaction, in order. -/
def sharesOf
    (accounts : List AccountHistory)
    (txid : Txid) : List TxContribution :=
  accounts.filterMap (fun account => account[txid]?)

namespace TxContribution

def sumOf (shares : List TxContribution) : TxContribution :=
  shares.foldl absorb .empty

/-- The number of outputs of the transaction, where it is carried. -/
def outputCount (contrib : TxContribution) : Option Nat :=
  contrib.tx.map (fun tx => tx.output.length)

/-- What a contribution adds to a balance. -/
def net (contrib : TxContribution) : Int :=
  (contrib.ownedOut : Int) - contrib.ownedIn

variable (start : TxContribution) (shares : List TxContribution)

theorem ownedIn_foldl_absorb
    (inRange : start.ownedIn ≤ u64Max)
    (shares : List TxContribution) :
    (shares.foldl absorb start).ownedIn =
      min (start.ownedIn + (shares.map ownedIn).sum) u64Max := by
  induction shares generalizing start with
  | nil =>
      simp [Nat.min_eq_left inRange]
  | cons first rest inductionHypothesis =>
      have kept : (start.absorb first).ownedIn ≤ u64Max :=
        Nat.min_le_right _ _
      rw [List.foldl_cons, inductionHypothesis _ kept, List.map_cons,
        List.sum_cons]
      change min (min (start.ownedIn + first.ownedIn) u64Max + _) u64Max = _
      omega

theorem ownedOut_foldl_absorb
    (inRange : start.ownedOut ≤ u64Max)
    (shares : List TxContribution) :
    (shares.foldl absorb start).ownedOut =
      min (start.ownedOut + (shares.map ownedOut).sum) u64Max := by
  induction shares generalizing start with
  | nil =>
      simp [Nat.min_eq_left inRange]
  | cons first rest inductionHypothesis =>
      have kept : (start.absorb first).ownedOut ≤ u64Max :=
        Nat.min_le_right _ _
      rw [List.foldl_cons, inductionHypothesis _ kept, List.map_cons,
        List.sum_cons]
      change min (min (start.ownedOut + first.ownedOut) u64Max + _) u64Max = _
      omega

theorem mem_ownedVouts_foldl_absorb
    (vout : Nat) :
    vout ∈ (shares.foldl absorb start).ownedVouts ↔
      vout ∈ start.ownedVouts ∨
        ∃ contrib ∈ shares, vout ∈ contrib.ownedVouts := by
  induction shares generalizing start with
  | nil =>
      simp
  | cons first rest inductionHypothesis =>
      have joined :
          vout ∈ (start.absorb first).ownedVouts ↔
            vout ∈ start.ownedVouts ∨ vout ∈ first.ownedVouts := by
        rw [absorb, Std.ExtTreeSet.mem_insertMany_list,
          List.contains_iff_mem, Std.ExtTreeSet.mem_toList]
      rw [List.foldl_cons, inductionHypothesis, joined, or_assoc,
        List.exists_mem_cons_iff]

theorem status_foldl_absorb :
    (shares.foldl absorb start).status =
      start.status.merge (.mergeAll (shares.map status)) := by
  rw [← PaymentStatus.foldl_merge]
  induction shares generalizing start with
  | nil =>
      rfl
  | cons first rest inductionHypothesis =>
      exact inductionHypothesis (start.absorb first)

theorem outputCount_foldl_absorb :
    (shares.foldl absorb start).outputCount =
      (start.outputCount <|> shares.findSome? outputCount) := by
  induction shares generalizing start with
  | nil =>
      simp
  | cons first rest inductionHypothesis =>
      have joined :
          (start.absorb first).outputCount =
            (start.outputCount <|> first.outputCount) := by
        unfold outputCount absorb
        cases start.tx <;> rfl
      rw [List.foldl_cons, inductionHypothesis, joined, List.findSome?_cons]
      cases start.outputCount <;> cases first.outputCount <;> rfl

theorem direction_congr
    {sum other : TxContribution}
    (sameIn : sum.ownedIn = other.ownedIn)
    (sameOut : sum.ownedOut = other.ownedOut)
    (sameVouts : ∀ vout, vout ∈ sum.ownedVouts ↔ vout ∈ other.ownedVouts)
    (sameCount : sum.outputCount = other.outputCount) :
    sum.direction = other.direction := by
  have sets : sum.ownedVouts = other.ownedVouts :=
    Std.ExtTreeSet.ext_mem (fun {vout} => sameVouts vout)
  unfold outputCount at sameCount
  rw [direction, direction, sameIn, sameOut, sets, sameCount]

def outline (sum : TxContribution) :
    Option (PaymentType × Nat) × PaymentStatus :=
  (sum.direction, sum.status)

theorem outline_sumOf_congr
    {shares others : List TxContribution}
    (sameIn : (shares.map ownedIn).sum = (others.map ownedIn).sum)
    (sameOut : (shares.map ownedOut).sum = (others.map ownedOut).sum)
    (sameVouts :
      ∀ vout,
        (∃ contrib ∈ shares, vout ∈ contrib.ownedVouts) ↔
          ∃ contrib ∈ others, vout ∈ contrib.ownedVouts)
    (sameStatus :
      PaymentStatus.mergeAll (shares.map status) =
        .mergeAll (others.map status))
    (sameCount :
      shares.findSome? outputCount = others.findSome? outputCount) :
    (sumOf shares).outline = (sumOf others).outline := by
  have zero : empty.ownedIn ≤ u64Max ∧ empty.ownedOut ≤ u64Max :=
    ⟨Nat.zero_le _, Nat.zero_le _⟩
  refine Prod.ext (direction_congr ?_ ?_ (fun vout => ?_) ?_) ?_
  · rw [sumOf, sumOf, ownedIn_foldl_absorb _ zero.1,
      ownedIn_foldl_absorb _ zero.1, sameIn]
  · rw [sumOf, sumOf, ownedOut_foldl_absorb _ zero.2,
      ownedOut_foldl_absorb _ zero.2, sameOut]
  · rw [sumOf, sumOf, mem_ownedVouts_foldl_absorb,
      mem_ownedVouts_foldl_absorb, sameVouts]
  · rw [sumOf, sumOf, outputCount_foldl_absorb, outputCount_foldl_absorb,
      sameCount]
  · change (sumOf shares).status = (sumOf others).status
    rw [sumOf, sumOf, status_foldl_absorb, status_foldl_absorb, sameStatus]

end TxContribution

/-- A payment without its label and its place in time. -/
def Payment.outline (payment : Payment) :
    String × PaymentType × Nat × PaymentStatus :=
  (payment.txid, payment.paymentType, payment.amount, payment.status)

section Sums

variable {accounts others : List AccountHistory}

variable (sums : BTreeMap Txid TxContribution) (display : Txid → String)
variable (account : AccountHistory)

theorem getElem?_absorbAccount
    (txid : Txid) :
    (absorbAccount sums account)[txid]? =
      match account[txid]? with
      | some contrib => some ((sums[txid]?.getD .empty).absorb contrib)
      | none => sums[txid]? := by
  have looked := BTreeMap.look_foldl_toList account
    (fun (sums : BTreeMap Txid TxContribution) row =>
      sums.insert row.1 ((sums[row.1]?.getD .empty).absorb row.2))
    (fun (sums : BTreeMap Txid TxContribution) txid => sums[txid]?)
    (fun _ contrib sum => some ((sum.getD .empty).absorb contrib))
    (by intro sums txid contrib _; simp)
    (by intro sums txid contrib query _ other; simp [other])
    sums txid
  cases told : account[txid]? <;>
    · rw [told] at looked
      exact looked

theorem sharesOf_cons
    (rest : List AccountHistory)
    (txid : Txid) :
    sharesOf (account :: rest) txid =
      (account[txid]?).toList ++ sharesOf rest txid := by
  unfold sharesOf
  rw [List.filterMap_cons]
  cases account[txid]? <;> rfl

theorem sharesOf_append
    (front back : List AccountHistory)
    (txid : Txid) :
    sharesOf (front ++ back) txid =
      sharesOf front txid ++ sharesOf back txid :=
  List.filterMap_append

theorem getElem?_foldl_absorbAccount
    (accounts : List AccountHistory)
    (txid : Txid) :
    (accounts.foldl absorbAccount sums)[txid]? =
      if sharesOf accounts txid = [] then
        sums[txid]?
      else
        some ((sharesOf accounts txid).foldl .absorb
          (sums[txid]?.getD .empty)) := by
  induction accounts generalizing sums with
  | nil =>
      rfl
  | cons account rest inductionHypothesis =>
      rw [List.foldl_cons, inductionHypothesis, getElem?_absorbAccount,
        sharesOf_cons]
      cases told : account[txid]? with
      | none =>
          rfl
      | some contrib =>
          by_cases quiet : sharesOf rest txid = []
          · simp [quiet]
          · simp [quiet]

theorem getElem?_sumByTxid
    (accounts : List AccountHistory)
    (txid : Txid) :
    (sumByTxid accounts)[txid]? =
      if sharesOf accounts txid = [] then
        none
      else
        some (.sumOf (sharesOf accounts txid)) := by
  rw [sumByTxid, getElem?_foldl_absorbAccount]
  simp [TxContribution.sumOf]

theorem outlines_aggregatePayments
    (accounts : List AccountHistory) :
    ((aggregatePayments display accounts).map Payment.outline).Perm
      (((sumByTxid accounts).map
          (fun _ sum => TxContribution.outline sum)).toList.filterMap
        (fun row =>
          row.2.1.map (fun way =>
            (display row.1, way.1, way.2, row.2.2)))) := by
  rw [Std.ExtTreeMap.toList_map, List.filterMap_map]
  refine ((List.mergeSort_perm _ _).map _).trans (List.Perm.of_eq ?_)
  rw [List.map_filterMap]
  refine List.filterMap_congr (fun row _ => ?_)
  simp only [TxContribution.payment, Option.map_map, Function.comp_def,
    TxContribution.outline]
  rfl

theorem sameOutlines
    (same :
      ∀ txid : Txid,
        ((sumByTxid accounts)[txid]?).map TxContribution.outline =
          ((sumByTxid others)[txid]?).map TxContribution.outline) :
    ((aggregatePayments display accounts).map Payment.outline).Perm
      ((aggregatePayments display others).map Payment.outline) := by
  have maps :
      (sumByTxid accounts).map (fun _ sum => TxContribution.outline sum) =
        (sumByTxid others).map
          (fun _ sum => TxContribution.outline sum) := by
    refine Std.ExtTreeMap.ext_getElem? (fun txid => ?_)
    rw [Std.ExtTreeMap.getElem?_map, Std.ExtTreeMap.getElem?_map]
    exact same txid
  refine (outlines_aggregatePayments display accounts).trans ?_
  rw [maps]
  exact (outlines_aggregatePayments display others).symm

theorem sameOutlines_of_shares
    (together :
      ∀ txid, sharesOf accounts txid = [] ↔ sharesOf others txid = [])
    (same :
      ∀ txid,
        (TxContribution.sumOf (sharesOf accounts txid)).outline =
          (TxContribution.sumOf (sharesOf others txid)).outline) :
    ((aggregatePayments display accounts).map Payment.outline).Perm
      ((aggregatePayments display others).map Payment.outline) := by
  refine sameOutlines display (fun txid => ?_)
  rw [getElem?_sumByTxid, getElem?_sumByTxid]
  by_cases quiet : sharesOf accounts txid = []
  · rw [if_pos quiet, if_pos ((together txid).mp quiet)]
  · rw [if_neg quiet, if_neg (fun other => quiet ((together txid).mpr other))]
    exact congrArg some (same txid)

end Sums

/-- The bodies the accounts carry for a transaction have as many outputs. -/
def SameBodies (accounts : List AccountHistory) : Prop :=
  ∀ (txid : Txid),
    ∀ contrib ∈ sharesOf accounts txid, ∀ other ∈ sharesOf accounts txid,
      ∀ count count',
        contrib.outputCount = some count →
          other.outputCount = some count' → count = count'

theorem findSome?_perm
    {Item Found : Type}
    {find : Item → Option Found}
    {items others : List Item}
    (same : items.Perm others)
    (alike :
      ∀ item ∈ items, ∀ other ∈ items, ∀ found found',
        find item = some found → find other = some found' →
          found = found') :
    items.findSome? find = others.findSome? find := by
  cases first : items.findSome? find with
  | none =>
      rw [List.findSome?_eq_none_iff] at first
      refine (List.findSome?_eq_none_iff.mpr (fun item member => ?_)).symm
      exact first item (same.mem_iff.mpr member)
  | some found =>
      obtain ⟨item, member, finds⟩ := List.exists_of_findSome?_eq_some first
      cases second : others.findSome? find with
      | none =>
          rw [List.findSome?_eq_none_iff] at second
          rw [second item (same.mem_iff.mp member)] at finds
          cases finds
      | some found' =>
          obtain ⟨other, otherMember, otherFinds⟩ :=
            List.exists_of_findSome?_eq_some second
          rw [alike item member other (same.mem_iff.mpr otherMember) _ _
            finds otherFinds]

theorem outlines_perm
    {accounts others : List AccountHistory}
    (display : Txid → String)
    (same : accounts.Perm others)
    (bodies : SameBodies accounts) :
    ((aggregatePayments display accounts).map Payment.outline).Perm
      ((aggregatePayments display others).map Payment.outline) := by
  have shares :
      ∀ txid, (sharesOf accounts txid).Perm (sharesOf others txid) :=
    fun txid => same.filterMap _
  refine sameOutlines_of_shares display
    (fun txid =>
      ⟨fun quiet => ((quiet ▸ shares txid).nil_eq).symm,
        fun quiet => (quiet ▸ shares txid).eq_nil⟩)
    (fun txid => ?_)
  refine TxContribution.outline_sumOf_congr
    ((shares txid).map _).sum_eq ((shares txid).map _).sum_eq
    (fun vout => ?_) (PaymentStatus.mergeAll_perm ((shares txid).map _))
    (findSome?_perm (shares txid) (bodies txid))
  simp only [(shares txid).mem_iff]

/-- Several accounts own together what one contribution says. -/
structure TxContribution.Splits
    (whole : TxContribution)
    (parts : List TxContribution) : Prop where
  some_part : parts ≠ []
  inputs : (parts.map ownedIn).sum = whole.ownedIn
  outputs : (parts.map ownedOut).sum = whole.ownedOut
  vouts :
    ∀ vout,
      vout ∈ whole.ownedVouts ↔ ∃ part ∈ parts, vout ∈ part.ownedVouts
  status : PaymentStatus.mergeAll (parts.map status) = whole.status
  /-- Some part carries the body, where the whole does. -/
  carried : parts.findSome? outputCount = whole.outputCount

/-- Several accounts own together what one account does. -/
def SplitsAccount
    (whole : AccountHistory)
    (parts : List AccountHistory) : Prop :=
  ∀ txid,
    match whole[txid]? with
    | some contrib => contrib.Splits (sharesOf parts txid)
    | none => sharesOf parts txid = []

theorem outlines_split
    {whole : AccountHistory}
    {parts : List AccountHistory}
    (display : Txid → String)
    (front back : List AccountHistory)
    (split : SplitsAccount whole parts) :
    ((aggregatePayments display (front ++ whole :: back)).map
        Payment.outline).Perm
      ((aggregatePayments display (front ++ parts ++ back)).map
        Payment.outline) := by
  have before :
      ∀ txid,
        sharesOf (front ++ whole :: back) txid =
          sharesOf front txid ++
            ((whole[txid]?).toList ++ sharesOf back txid) :=
    fun txid => by rw [sharesOf_append, sharesOf_cons]
  have after :
      ∀ txid,
        sharesOf (front ++ parts ++ back) txid =
          sharesOf front txid ++
            (sharesOf parts txid ++ sharesOf back txid) :=
    fun txid => by
      rw [sharesOf_append, sharesOf_append, List.append_assoc]
  have perTx := fun txid => split txid
  refine sameOutlines_of_shares display (fun txid => ?_) (fun txid => ?_)
  · have here := perTx txid
    rw [before, after]
    cases told : whole[txid]? with
    | none =>
        rw [told] at here
        rw [show sharesOf parts txid = [] from here]
        rfl
    | some contrib =>
        rw [told] at here
        simp [here.some_part]
  · have here := perTx txid
    rw [before, after]
    cases told : whole[txid]? with
    | none =>
        rw [told] at here
        rw [show sharesOf parts txid = [] from here]
        rfl
    | some contrib =>
        rw [told] at here
        refine TxContribution.outline_sumOf_congr ?_ ?_ (fun vout => ?_)
          ?_ ?_
        · simp [here.inputs]
        · simp [here.outputs]
        · simp only [List.mem_append, Option.toList_some,
            List.mem_singleton, or_and_right, exists_or, exists_eq_left,
            here.vouts]
        · simp only [List.map_append, PaymentStatus.mergeAll_append,
            here.status, Option.toList_some, List.map_cons, List.map_nil]
          simp [PaymentStatus.mergeAll]
        · simp only [List.findSome?_append, here.carried,
            Option.toList_some, List.findSome?_singleton]

namespace TxContribution

theorem signed_payment
    (display : Txid → String)
    (txid : Txid)
    (sum : TxContribution) :
    ((sum.payment display txid).elim 0 Payment.signed) = sum.net := by
  unfold payment direction net
  by_cases nothing : sum.ownedIn = 0 ∧ sum.ownedOut = 0
  · simp [nothing.1, nothing.2]
  · rw [if_neg nothing]
    by_cases foreign : sum.ownedIn = 0
    · simp [foreign, Payment.signed]
    · rw [if_neg foreign]
      by_cases gain : sum.ownedOut > sum.ownedIn
      · simp only [gain, ↓reduceIte, Option.map_some, Option.elim_some,
          Payment.signed]
        omega
      · rw [if_neg gain]
        have outflow :
            -((sum.ownedIn - sum.ownedOut : Nat) : Int) =
              (sum.ownedOut : Int) - sum.ownedIn := by
          omega
        cases sum.tx.map (fun tx => tx.output.length) with
        | none =>
            exact outflow
        | some count =>
            by_cases all : sum.ownedVouts.size = count
            · simpa [all, Payment.signed] using outflow
            · simpa [all, Payment.signed] using outflow

theorem net_sumOf
    {shares : List TxContribution}
    (fitsIn : (shares.map ownedIn).sum ≤ u64Max)
    (fitsOut : (shares.map ownedOut).sum ≤ u64Max) :
    (sumOf shares).net = (shares.map net).sum := by
  have inputs : (sumOf shares).ownedIn = (shares.map ownedIn).sum := by
    rw [sumOf, ownedIn_foldl_absorb _ (Nat.zero_le _)]
    change min (0 + _) _ = _
    omega
  have outputs : (sumOf shares).ownedOut = (shares.map ownedOut).sum := by
    rw [sumOf, ownedOut_foldl_absorb _ (Nat.zero_le _)]
    change min (0 + _) _ = _
    omega
  rw [net, inputs, outputs]
  clear fitsIn fitsOut inputs outputs
  induction shares with
  | nil =>
      rfl
  | cons first rest inductionHypothesis =>
      simp only [List.map_cons, List.sum_cons, ← inductionHypothesis, net]
      push_cast
      ring

end TxContribution

/-- No sum over the accounts leaves 64 bits. -/
def NoSaturation (accounts : List AccountHistory) : Prop :=
  ∀ txid,
    ((sharesOf accounts txid).map TxContribution.ownedIn).sum ≤ u64Max ∧
      ((sharesOf accounts txid).map TxContribution.ownedOut).sum ≤ u64Max

theorem sum_filterMap
    {Item Kept : Type}
    (keep : Item → Option Kept)
    (value : Kept → Int)
    (items : List Item) :
    ((items.filterMap keep).map value).sum =
      (items.map (fun item => (keep item).elim 0 value)).sum := by
  induction items with
  | nil =>
      rfl
  | cons item rest inductionHypothesis =>
      rw [List.filterMap_cons, List.map_cons, List.sum_cons,
        ← inductionHypothesis]
      cases keep item with
      | none => simp
      | some kept => simp

theorem sum_signed
    (display : Txid → String)
    (accounts : List AccountHistory) :
    ((aggregatePayments display accounts).map Payment.signed).sum =
      (sumByTxid accounts).total (fun _ sum => sum.net) := by
  rw [aggregatePayments, ((List.mergeSort_perm _ _).map _).sum_eq,
    sum_filterMap, BTreeMap.total]
  exact congrArg List.sum (List.map_congr_left (fun row _ =>
    TxContribution.signed_payment display row.1 row.2))

theorem sum_signed_eq_net
    (display : Txid → String)
    {accounts : List AccountHistory}
    (fits : NoSaturation accounts) :
    ((aggregatePayments display accounts).map Payment.signed).sum =
      (accounts.map (fun account =>
        account.total (fun _ contrib => contrib.net))).sum := by
  -- Every total is taken over the transactions that any account tells of.
  obtain ⟨txids, covered⟩ :
      ∃ txids : Finset Txid,
        ∀ account ∈ accounts, ∀ txid, txid ∈ account → txid ∈ txids := by
    refine ⟨(accounts.flatMap (fun account => account.keys)).toFinset,
      fun account member txid told => ?_⟩
    rw [List.mem_toFinset, List.mem_flatMap]
    exact ⟨account, member, Std.ExtTreeMap.mem_keys.mpr told⟩
  have summed : ∀ txid, txid ∈ sumByTxid accounts → txid ∈ txids := by
    intro txid listed
    rw [BTreeMap.mem_iff_getElem?, getElem?_sumByTxid] at listed
    obtain ⟨sum, listed⟩ := listed
    have told : sharesOf accounts txid ≠ [] := by
      intro quiet
      rw [if_pos quiet] at listed
      cases listed
    obtain ⟨contrib, member⟩ := List.exists_mem_of_ne_nil _ told
    obtain ⟨account, present, tells⟩ := List.mem_filterMap.mp member
    exact covered account present txid
      (BTreeMap.mem_iff_getElem?.mpr ⟨contrib, tells⟩)
  have perTx :
      ∀ txid,
        (sumByTxid accounts).share (fun _ sum => sum.net) txid =
          (accounts.map (fun account =>
            account.share (fun _ contrib => contrib.net) txid)).sum := by
    intro txid
    have told :
        ((sharesOf accounts txid).map TxContribution.net).sum =
          (accounts.map (fun account =>
            account.share (fun _ contrib => contrib.net) txid)).sum :=
      sum_filterMap _ _ _
    rw [← told, BTreeMap.share, getElem?_sumByTxid]
    by_cases quiet : sharesOf accounts txid = []
    · simp [quiet]
    · rw [if_neg quiet]
      exact TxContribution.net_sumOf (fits txid).1 (fits txid).2
  rw [sum_signed, BTreeMap.total_eq_sum _ _ summed,
    Finset.sum_congr rfl (fun txid _ => perTx txid)]
  clear perTx summed fits
  induction accounts with
  | nil =>
      simp
  | cons account rest inductionHypothesis =>
      simp only [List.map_cons, List.sum_cons, Finset.sum_add_distrib]
      rw [inductionHypothesis (fun other member =>
          covered other (List.mem_cons_of_mem _ member)),
        BTreeMap.total_eq_sum account _
          (covered account List.mem_cons_self)]

/-- An account that spends 10 and gets 4 back, with a body of one output. -/
def spendingAccount : AccountHistory :=
  (∅ : AccountHistory).insert 7
    { TxContribution.empty with
      ownedIn := 10
      ownedOut := 4
      ownedVouts := (∅ : BTreeSet Nat).insert 0
      tx := some ⟨2, 7, [], [⟨4, 1⟩]⟩ }

/-- The part of it that owns the input and holds the body. -/
def payingPart : AccountHistory :=
  (∅ : AccountHistory).insert 7
    { TxContribution.empty with
      ownedIn := 10
      tx := some ⟨2, 7, [], [⟨4, 1⟩]⟩ }

/-- The part of it that owns the output. -/
def changePart : AccountHistory :=
  (∅ : AccountHistory).insert 7
    { TxContribution.empty with
      ownedOut := 4
      ownedVouts := (∅ : BTreeSet Nat).insert 0 }

theorem spendingAccount_split :
    SplitsAccount spendingAccount [changePart, payingPart] := by
  intro txid
  by_cases same : txid = 7
  · subst same
    simp only [spendingAccount, payingPart, changePart, sharesOf,
      List.filterMap_cons, List.filterMap_nil,
      BTreeMap.getElem?_insert_eq, ↓reduceIte]
    exact {
      some_part := by simp
      inputs := by rfl
      outputs := by rfl
      vouts := by simp [TxContribution.empty]
      status := by rfl
      carried := by rfl }
  · simp [spendingAccount, payingPart, changePart, sharesOf, Ne.symm same]

/-- An account that carries a body of two outputs for the same transaction. -/
def watchingAccount : AccountHistory :=
  (∅ : AccountHistory).insert 7
    { TxContribution.empty with
      tx := some ⟨2, 7, [], [⟨4, 1⟩, ⟨5, 2⟩]⟩ }

end Bwk
