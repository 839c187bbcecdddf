import Bwk.CheckedMath
import Bwk.CoinStore
import Bwk.OrderedMapSums

namespace Bwk

/-!
# Payment history

`electrum/src/history.rs`: every account tells, for each transaction, what it
owns of its inputs and outputs.  The shares are summed over the accounts first,
and only then does a transaction get a direction and an amount.
-/

/-- `u64::saturating_add`. -/
def saturatingAddSats (left right : Nat) : Nat :=
  min (left + right) u64Max

/-- Which way a payment goes. -/
inductive PaymentType where
  | receive
  | send
  | toSelf
  deriving Repr, DecidableEq

/-- How far a payment has been verified. -/
inductive PaymentStatus where
  | unconfirmed
  | confirmedUnverified
  | verified
  | verifyFailed
  deriving Repr, DecidableEq

/-- The status two accounts agree on. -/
def PaymentStatus.merge : PaymentStatus → PaymentStatus → PaymentStatus
  | .verifyFailed, _ | _, .verifyFailed => .verifyFailed
  | .confirmedUnverified, _ | _, .confirmedUnverified => .confirmedUnverified
  | .verified, _ | _, .verified => .verified
  | .unconfirmed, .unconfirmed => .unconfirmed

/-- `PaymentStatus::from`. -/
def Inclusion.paymentStatus : Inclusion → PaymentStatus
  | .unconfirmed => .unconfirmed
  | .confirmedUnverified _ _ => .confirmedUnverified
  | .verified _ _ => .verified
  | .verifyFailed _ _ => .verifyFailed

/-- A transaction as the user sees it. -/
structure Payment where
  txid : String
  paymentType : PaymentType
  status : PaymentStatus
  amount : Nat
  label : String
  height : Option Nat
  timestamp : Option Nat
  deriving Repr, DecidableEq

/-- What one account owns of a transaction. -/
structure TxContribution where
  ownedIn : Nat
  ownedOut : Nat
  /-- Indices of the outputs the account owns. -/
  ownedVouts : BTreeSet Nat
  height : Option Nat
  status : PaymentStatus
  timestamp : Option Nat
  label : Option String
  /-- The transaction, carried by whichever account holds it. -/
  tx : Option Transaction

/-- `TxContribution::default`. -/
def TxContribution.empty : TxContribution where
  ownedIn := 0
  ownedOut := 0
  ownedVouts := ∅
  height := none
  status := .unconfirmed
  timestamp := none
  label := none
  tx := none

/-- What an account tells of each transaction it takes part in. -/
abbrev AccountHistory := BTreeMap Txid TxContribution

namespace TxContribution

/-- Add one account's share of a transaction to the sum so far. -/
def absorb (sum contrib : TxContribution) : TxContribution where
  ownedIn := saturatingAddSats sum.ownedIn contrib.ownedIn
  ownedOut := saturatingAddSats sum.ownedOut contrib.ownedOut
  ownedVouts := sum.ownedVouts.insertMany contrib.ownedVouts.toList
  height := sum.height <|> contrib.height
  status := sum.status.merge contrib.status
  timestamp := sum.timestamp <|> contrib.timestamp
  label := sum.label <|> contrib.label
  tx := sum.tx <|> contrib.tx

/-- The direction and the amount of a sum; `none` does not concern us. -/
def direction (sum : TxContribution) : Option (PaymentType × Nat) :=
  if sum.ownedIn = 0 ∧ sum.ownedOut = 0 then
    none
  else if sum.ownedIn = 0 then
    some (.receive, sum.ownedOut)
  else if sum.ownedOut > sum.ownedIn then
    -- An input is ours but the transaction nets a gain.
    some (.receive, sum.ownedOut - sum.ownedIn)
  else
    match sum.tx.map (fun tx => tx.output.length) with
    | some count =>
        if sum.ownedVouts.size = count then
          some (.toSelf, sum.ownedIn - sum.ownedOut)
        else
          some (.send, sum.ownedIn - sum.ownedOut)
    | none => some (.send, sum.ownedIn - sum.ownedOut)

def payment
    (display : Txid → String)
    (txid : Txid)
    (sum : TxContribution) : Option Payment :=
  sum.direction.map (fun (paymentType, amount) =>
    { txid := display txid
      paymentType := paymentType
      status := sum.status
      amount := amount
      label := sum.label.getD ""
      height := sum.height
      timestamp := sum.timestamp })

end TxContribution

/-- Add what an account tells to the sums. -/
def absorbAccount
    (byTxid : BTreeMap Txid TxContribution)
    (account : AccountHistory) : BTreeMap Txid TxContribution :=
  account.toList.foldl
    (fun sums row =>
      sums.insert row.1 ((sums[row.1]?.getD .empty).absorb row.2))
    byTxid

def sumByTxid (accounts : List AccountHistory) :
    BTreeMap Txid TxContribution :=
  accounts.foldl absorbAccount ∅

def Payment.notAfter (first second : Payment) : Bool :=
  match first.height, second.height with
  | none, none => first.txid ≤ second.txid
  | none, some _ => true
  | some _, none => false
  | some low, some high =>
      low > high ∨ (low = high ∧ first.txid ≤ second.txid)

/--
The payments of several accounts, one for each transaction that concerns them:
unconfirmed first, then by falling height, then by identifier.
-/
def aggregatePayments
    (display : Txid → String)
    (accounts : List AccountHistory) : List Payment :=
  ((sumByTxid accounts).toList.filterMap
    (fun row => row.2.payment display row.1)).mergeSort Payment.notAfter

/-- What a payment adds to a balance. -/
def Payment.signed (payment : Payment) : Int :=
  match payment.paymentType with
  | .receive => payment.amount
  | .send | .toSelf => -(payment.amount : Int)

namespace PaymentStatus

theorem merge_comm (left right : PaymentStatus) :
    left.merge right = right.merge left := by
  cases left <;> cases right <;> rfl

theorem merge_assoc (left middle right : PaymentStatus) :
    (left.merge middle).merge right = left.merge (middle.merge right) := by
  cases left <;> cases middle <;> cases right <;> rfl

@[simp] theorem unconfirmed_merge (status : PaymentStatus) :
    merge .unconfirmed status = status := by
  cases status <;> rfl

@[simp] theorem merge_unconfirmed (status : PaymentStatus) :
    status.merge .unconfirmed = status := by
  cases status <;> rfl

def mergeAll (statuses : List PaymentStatus) : PaymentStatus :=
  statuses.foldl merge .unconfirmed

theorem foldl_merge
    (status : PaymentStatus)
    (statuses : List PaymentStatus) :
    statuses.foldl merge status = status.merge (mergeAll statuses) := by
  induction statuses generalizing status with
  | nil =>
      simp [mergeAll]
  | cons first rest inductionHypothesis =>
      have headed :
          mergeAll (first :: rest) = first.merge (mergeAll rest) := by
        rw [mergeAll, List.foldl_cons, unconfirmed_merge,
          inductionHypothesis]
      rw [List.foldl_cons, inductionHypothesis, headed, merge_assoc]

theorem mergeAll_append (left right : List PaymentStatus) :
    mergeAll (left ++ right) = (mergeAll left).merge (mergeAll right) := by
  rw [mergeAll, List.foldl_append, foldl_merge]
  rfl

theorem mergeAll_perm
    {left right : List PaymentStatus}
    (same : left.Perm right) : mergeAll left = mergeAll right := by
  refine same.foldl_eq' (fun first _ second _ status => ?_) _
  rw [merge_assoc, merge_comm first second, ← merge_assoc]

end PaymentStatus

end Bwk
