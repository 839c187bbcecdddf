import Bwk.TxTemplate
import Bwk.HeaderChain

namespace Bwk.Tx

open RecipientProvider

/-!
# Recipients

The recipients of `tx/src/recipient.rs`: an address to pay, the change of a
descriptor wallet, and one of several kinds behind a box.
-/

/-- An address, by the script it stands for and the script's length. -/
structure Address where
  scriptPubkey : ScriptBuf
  scriptLength : Nat
  deriving Repr, DecidableEq

/-- The bytes of a count or a length in front of what is counted. -/
def varintSize (count : Nat) : Nat :=
  if count < 253 then 1
  else if count ≤ 0xFFFF then 3
  else if count ≤ 0xFFFFFFFF then 5
  else 9

def txOutWeight (scriptLength : Nat) : Nat :=
  4 * (8 + varintSize scriptLength + scriptLength)

/-- An address to pay, with its derivation when it is the wallet's own. -/
structure Recipient where
  address : Address
  amount : Amount
  label : Option String
  origin : Option (KeyChain × Nat)
  descriptor : Option Descriptor
  deriving Repr, DecidableEq

namespace Recipient

/-- What signers learn of the output. -/
def psbtOutputInfo (recipient : Recipient) : PsbtOutputInfo :=
  match recipient.origin, recipient.descriptor with
  | some origin, some descriptor => .bip32 origin descriptor
  | _, _ => .none

/-- The output is on the change keychain. -/
def isChange (recipient : Recipient) : Bool :=
  match recipient.origin with
  | some (.change, _) => true
  | _ => false

def toPsbtOutput
    (miniscript : Miniscript)
    (recipient : Recipient) : Option PsbtOutput :=
  match recipient.descriptor, recipient.origin with
  | some descriptor, some origin =>
      (miniscript.updateOutput descriptor origin).map
        (fun fields => { PsbtOutput.empty with derived := some fields })
  | _, _ => some .empty

/-- The network of the descriptor's keys, `signet` for want of one. -/
def network (recipient : Recipient) : Network :=
  match recipient.descriptor with
  | some descriptor => if descriptor.mainnet then .bitcoin else .signet
  | none => .signet

end Recipient

instance : RecipientProvider Recipient where
  outputWeight recipient := txOutWeight recipient.address.scriptLength
  createScript _ recipient := .ok (recipient.address.scriptPubkey, recipient)
  psbtOutputInfo recipient := .ok recipient.psbtOutputInfo
  isSilentPayment _ := false
  isChange := Recipient.isChange
  amount := Recipient.amount
  setAmount wanted recipient := { recipient with amount := wanted }
  setPrecomputedScript _ recipient := recipient
  toPsbtOutput := Recipient.toPsbtOutput
  network := Recipient.network

instance : LawfulRecipient Recipient where
  amount_setAmount _ _ := rfl
  outputWeight_setAmount _ _ := rfl
  isChange_setAmount _ _ := rfl
  amount_setPrecomputedScript _ _ := rfl

/-- The change of a descriptor wallet, on the next index of its change
keychain. -/
structure ChangeRecipientProvider where
  /-- The last index given out. -/
  tip : Nat
  descriptor : Descriptor
  network : Network
  amount : Amount
  currentIndex : Option Nat
  /-- The weight of an output on the change keychain. -/
  changeWeight : Nat
  /-- The script on the change keychain at an index, unless it cannot be
  derived. -/
  changeScript : Nat → Option ScriptBuf

namespace ChangeRecipientProvider

/-- Give out the next index and derive its script. -/
def createScript
    (provider : ChangeRecipientProvider) :
    Except Panic (ScriptBuf × ChangeRecipientProvider) :=
  if provider.tip < u32Max then
    match provider.changeScript (provider.tip + 1) with
    | some script =>
        return (script,
          { provider with
            tip := provider.tip + 1
            currentIndex := some (provider.tip + 1) })
    | none => throw (.expect "derivation")
  else
    throw .overflow

/-- What signers learn of the output once it has a script. -/
def psbtOutputInfo
    (provider : ChangeRecipientProvider) : Except Panic PsbtOutputInfo :=
  match provider.currentIndex with
  | some index => return .bip32 (.change, index) provider.descriptor
  | none =>
      throw (.expect "psbt_output_info() called before create_script()")

end ChangeRecipientProvider

instance : RecipientProvider ChangeRecipientProvider where
  outputWeight := ChangeRecipientProvider.changeWeight
  createScript _ := ChangeRecipientProvider.createScript
  psbtOutputInfo := ChangeRecipientProvider.psbtOutputInfo
  isSilentPayment _ := false
  isChange _ := true
  amount := ChangeRecipientProvider.amount
  setAmount wanted provider := { provider with amount := wanted }
  setPrecomputedScript _ provider := provider
  toPsbtOutput _ _ := some .empty
  network := ChangeRecipientProvider.network

instance : LawfulRecipient ChangeRecipientProvider where
  amount_setAmount _ _ := rfl
  outputWeight_setAmount _ _ := rfl
  isChange_setAmount _ _ := rfl
  amount_setPrecomputedScript _ _ := rfl

/-- A recipient behind a box: an address, or any other kind. -/
inductive BoxedRecipient (P : Type) where
  | recipient (recipient : Recipient)
  | provider (provider : P)

section Boxes

variable {P : Type} [RecipientProvider P]

instance : RecipientProvider (BoxedRecipient P) where
  outputWeight
    | .recipient recipient => outputWeight recipient
    | .provider provider => outputWeight provider
  createScript context
    | .recipient recipient => do
        let (script, recipient) ← createScript context recipient
        return (script, .recipient recipient)
    | .provider provider => do
        let (script, provider) ← createScript context provider
        return (script, .provider provider)
  psbtOutputInfo
    | .recipient recipient => psbtOutputInfo recipient
    | .provider provider => psbtOutputInfo provider
  isSilentPayment
    | .recipient recipient => isSilentPayment recipient
    | .provider provider => isSilentPayment provider
  isChange
    | .recipient recipient => isChange recipient
    | .provider provider => isChange provider
  amount
    | .recipient recipient => amount recipient
    | .provider provider => amount provider
  setAmount wanted
    | .recipient recipient => .recipient (setAmount wanted recipient)
    | .provider provider => .provider (setAmount wanted provider)
  setPrecomputedScript script
    | .recipient recipient =>
        .recipient (setPrecomputedScript script recipient)
    | .provider provider => .provider (setPrecomputedScript script provider)
  toPsbtOutput miniscript
    | .recipient recipient => toPsbtOutput miniscript recipient
    | .provider provider => toPsbtOutput miniscript provider
  network
    | .recipient recipient => RecipientProvider.network recipient
    | .provider provider => RecipientProvider.network provider

/-- A box adds nothing to the laws of what it holds. -/
instance [LawfulRecipient P] : LawfulRecipient (BoxedRecipient P) where
  amount_setAmount wanted boxed := by
    cases boxed with
    | recipient recipient =>
        exact LawfulRecipient.amount_setAmount wanted recipient
    | provider provider =>
        exact LawfulRecipient.amount_setAmount wanted provider
  outputWeight_setAmount wanted boxed := by
    cases boxed with
    | recipient recipient =>
        exact LawfulRecipient.outputWeight_setAmount wanted recipient
    | provider provider =>
        exact LawfulRecipient.outputWeight_setAmount wanted provider
  isChange_setAmount wanted boxed := by
    cases boxed with
    | recipient recipient =>
        exact LawfulRecipient.isChange_setAmount wanted recipient
    | provider provider =>
        exact LawfulRecipient.isChange_setAmount wanted provider
  amount_setPrecomputedScript script boxed := by
    cases boxed with
    | recipient recipient =>
        exact LawfulRecipient.amount_setPrecomputedScript script recipient
    | provider provider =>
        exact LawfulRecipient.amount_setPrecomputedScript script provider

end Boxes

namespace TxSample

def coin (index value : Nat) : Coin where
  txout := ⟨value, 100 + index⟩
  outpoint := ⟨index, 0⟩
  height := some 1
  sequence := 0
  status := .confirmed
  label := none
  satisfactionSize := 66
  spendInfo := .bip32 (.receive, index) ⟨0, false⟩

/-- A taproot address to pay. -/
def pay (amount : Amount) : Recipient where
  address := ⟨7, 34⟩
  amount := amount
  label := none
  origin := none
  descriptor := none

/-- The change of a taproot wallet. -/
def changeProvider : ChangeRecipientProvider where
  tip := 0
  descriptor := ⟨0, false⟩
  network := .signet
  amount := .value 0
  currentIndex := none
  changeWeight := txOutWeight 34
  changeScript index := some (1000 + index)

/-- Recipients of the sample wallet. -/
abbrev Boxed : Type :=
  BoxedRecipient ChangeRecipientProvider

/-- A template that pays these recipients with these coins. -/
def template
    (inputs : List Coin)
    (amounts : List Amount)
    (fees : Fees) : TxTemplate Boxed where
  inputs := inputs
  outputs := amounts.map (fun amount => .recipient (pay amount))
  fees := fees
  dustThreshold := dustAmount

end TxSample

end Bwk.Tx
