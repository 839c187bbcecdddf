import Bwk.CoinGenerate
import Bwk.PaymentAdditive

namespace Bwk

/-!
# The balance of a scan

`electrum/src/scanner.rs`: a scan tells what it owns of each stored
transaction, and its balance is what the payments derived from that add up to.
The other way to count is over the coins that are not spent.
-/

/-- `iter().sum()` in 64 bits; `none` is the overflow. -/
def checkedSum (values : List Nat) : Option Nat :=
  if values.sum ≤ u64Max then some values.sum else none

namespace TxEntry

/-- The values of the inputs known to be ours. -/
def ownedInputs (entry : TxEntry) : List Nat :=
  (entry.inputs.filter InputMetadata.owned).map
    (fun known => known.value.getD 0)

/-- The outputs known to be ours, with their positions. -/
def ownedOutputs (entry : TxEntry) : List (TxOut × Nat) :=
  entry.outputs.zipIdx.filterMap (fun (known, vout) =>
    if known.owned then
      (entry.tx.output[vout]?).map (fun txout => (txout, vout))
    else
      none)

end TxEntry

namespace CoinStore

variable {Backend : Type}

section Scanner

variable (crate : TxCrate) (txLabels : BTreeMap Txid String)
variable (display : Txid → String) (coins : CoinStore Backend)

/--
The status a stored transaction is shown with: a queued claim reads as
confirmed and, without a header scanner, as verified.
-/
def paymentStatus (entry : TxEntry) : PaymentStatus :=
  let status : PaymentStatus :=
    match coins.pendingClaimHeight (crate.computeTxid entry.tx) with
    | some _ => .confirmedUnverified
    | none => entry.inclusion.paymentStatus
  match status with
  | .confirmedUnverified =>
      if coins.headerScanner then .confirmedUnverified else .verified
  | status => status

/-- What the scan owns of a stored transaction. -/
def txContribution (entry : TxEntry) : Option TxContribution := do
  let txid := crate.computeTxid entry.tx
  let ownedIn ← checkedSum entry.ownedInputs
  let ownedOut ← checkedSum (entry.ownedOutputs.map (fun row => row.1.value))
  let ownedVouts : BTreeSet Nat :=
    Std.ExtTreeSet.ofList (entry.ownedOutputs.map Prod.snd)
  some
    { ownedIn := ownedIn
      ownedOut := ownedOut
      ownedVouts := ownedVouts
      height := coins.pendingClaimHeight txid <|> entry.height
      status := coins.paymentStatus crate entry
      timestamp := entry.timestamp
      -- The label of the transaction, else that of one of its coins.
      label :=
        txLabels[txid]? <|>
          ownedVouts.toList.findSome?
            (fun vout => coins.labels[(⟨txid, vout⟩ : OutPoint)]?)
      tx := some entry.tx }

/-- What the scan owns of every stored transaction; `none` is a panic. -/
def txContributions : Option AccountHistory :=
  (coins.txStore.transactions.mapM (fun entry =>
    (coins.txContribution crate txLabels entry).map
      (fun contrib => (crate.computeTxid entry.tx, contrib)))).map
    (BTreeMap.insertAll ∅)

/-- The sum of the payments, over which a balance is read. -/
def runningTotal (payments : List Payment) : Int :=
  payments.foldl (fun total payment => total + payment.signed) 0

def balance : Option (Nat × List Payment) :=
  (coins.txContributions crate txLabels).map (fun account =>
    let payments := aggregatePayments display [account]
    let total := runningTotal payments
    -- A negative total is reported as zero; the cast keeps 64 bits.
    (if total < 0 then 0 else total.toNat % 2 ^ 64, payments))

end Scanner

end CoinStore

end Bwk
