import Bwk.TxProcess

namespace Bwk.Tx

open RecipientProvider

/-!
# Building a transaction

`TxTemplate::finalize` of `tx/src/transaction.rs` and the builder of
`tx/src/tx_builder.rs`: process the template, add the change output, shuffle,
check, and describe every input and output in a PSBT.
-/

/-- An unsigned transaction with what its signers need. -/
structure Psbt where
  unsignedTx : Transaction
  inputs : List PsbtInput
  outputs : List PsbtOutput
  deriving Repr, DecidableEq

/-- A random order. -/
structure Shuffle (α : Type) where
  apply : List α → List α
  perm : ∀ list, (apply list).Perm list

/-- The order things are in. -/
def Shuffle.id (α : Type) : Shuffle α :=
  ⟨fun list => list, fun list => List.Perm.refl list⟩

section Build

variable {R : Type} [RecipientProvider R]

/-- A recipient with a script, when it is a silent payment. -/
def ScriptedAs (recipient scripted : R) : Prop :=
  scripted = recipient ∨
    (isSilentPayment recipient = true ∧
      ∃ script, scripted = setPrecomputedScript script recipient)

/-- What derives the scripts of silent payments, and nothing else. -/
structure SpPartialSecretProvider (R : Type) [RecipientProvider R] where
  computePartialSecret : List Coin → Option SecretKey
  deriveSpScripts : List R → SecretKey → Except Panic (List R)
  scripted :
    ∀ (outputs : List R) (secret : SecretKey) (derived : List R),
      deriveSpScripts outputs secret = .ok derived →
        List.Forall₂ ScriptedAs outputs derived

def TxTemplate.prepareOutputs
    (template : TxTemplate R)
    (change : Option R) : Outcome (List R) :=
  match change with
  | none => return template.outputs
  | some change =>
      if ¬ isChange change = true then
        throw (.err .notChange)
      else if template.outputs.any isChange then
        throw (.err .changeAlreadyAdded)
      else
        return template.outputs ++ [change]

/-- The secret for the silent payments among the outputs. -/
def computeSpPartialSecret
    (inputs : List Coin)
    (outputs : List R)
    (spProvider : SpPartialSecretProvider R) : Outcome (Option SecretKey) :=
  if outputs.any isSilentPayment then
    match spProvider.computePartialSecret inputs with
    | some secret => return some secret
    | none => throw (.err .spPartialSecret)
  else
    return none

def deriveScripts
    (spProvider : Option (SpPartialSecretProvider R))
    (inputs : List Coin)
    (outputs : List R) : Outcome (Option SecretKey × List R) :=
  match spProvider with
  | none => return (none, outputs)
  | some spProvider => do
      let secret ← computeSpPartialSecret inputs outputs spProvider
      match secret with
      | none => return (none, outputs)
      | some secret => do
          let derived ← liftPanic (spProvider.deriveSpScripts outputs secret)
          return (some secret, derived)

def createOutput
    (context : FinalizationContext)
    (recipient : R) : Outcome (TxOut × R) := do
  let (script, after) ← liftPanic (createScript context recipient)
  return (⟨outputBitcoinAmount recipient, script⟩, after)

/-- Store what signers of silent payments need. -/
def setSpV0Output
    (output : PsbtOutput)
    (scanPubkey spendPubkey : PublicKey)
    (label : Option Nat) : PsbtOutput :=
  { output with
    spV0Info := some (scanPubkey, spendPubkey)
    spV0Label := label.orElse (fun _ => output.spV0Label) }

def describeInput
    (miniscript : Miniscript)
    (coin : Coin) : Outcome PsbtInput :=
  match coin.toPsbtInput miniscript with
  | some input => return input
  | none => throw (.err .input)

def describeOutput
    (miniscript : Miniscript)
    (recipient : R) : Outcome PsbtOutput :=
  match toPsbtOutput miniscript recipient with
  | none => throw (.err .output)
  | some output => do
      let info ← liftPanic (psbtOutputInfo recipient)
      match info with
      | .silentPayment scanPubkey spendPubkey label =>
          return setSpV0Output output scanPubkey spendPubkey label
      | _ => return output

def buildPsbt
    (miniscript : Miniscript)
    (inputs : List Coin)
    (outputs : List R)
    (context : FinalizationContext) : Outcome Psbt := do
  let created ← outputs.mapM (createOutput context)
  let psbtInputs ← inputs.mapM (describeInput miniscript)
  let psbtOutputs ←
    (created.map Prod.snd).mapM (describeOutput miniscript)
  return {
    unsignedTx := {
      version := 2
      lockTime := 0
      input := inputs.map Coin.toTxIn
      output := created.map Prod.fst }
    inputs := psbtInputs
    outputs := psbtOutputs }

/-- Derive the scripts and build the transaction. -/
def assemble
    (miniscript : Miniscript)
    (spProvider : Option (SpPartialSecretProvider R))
    (network : Network)
    (inputs : List Coin)
    (outputs : List R) : Outcome Psbt := do
  let (secret, derived) ← deriveScripts spProvider inputs outputs
  buildPsbt miniscript inputs derived ⟨inputs, secret, network⟩

def runChecks
    (skipChecks : Bool)
    (inputs : List Coin)
    (outputs : List R)
    (fees : Fees)
    (dustThreshold maxFeePercent maxFeeAmount : Nat) : Outcome Unit :=
  if skipChecks then
    return ()
  else do
    checkMissingChange inputs outputs fees dustThreshold
    checkDisproportionateFee inputs outputs maxFeePercent maxFeeAmount

/-- The inputs and outputs in a random order, when asked for. -/
def shuffleMaybe
    (shuffle : Option (Shuffle Coin × Shuffle R))
    (inputs : List Coin)
    (outputs : List R) : List Coin × List R :=
  match shuffle with
  | some (coins, recipients) => (coins.apply inputs, recipients.apply outputs)
  | none => (inputs, outputs)

def TxTemplate.finalize
    (template : TxTemplate R)
    (miniscript : Miniscript)
    (change : Option R)
    (shuffle : Option (Shuffle Coin × Shuffle R))
    (spProvider : Option (SpPartialSecretProvider R))
    (network : Network)
    (maxFeePercent maxFeeAmount : Nat)
    (skipChecks : Bool) : Outcome Psbt := do
  let prepared ← template.prepareOutputs change
  let (inputs, outputs) := shuffleMaybe shuffle template.inputs prepared
  runChecks skipChecks inputs outputs template.fees template.dustThreshold
    maxFeePercent maxFeeAmount
  assemble miniscript spProvider network inputs outputs

end Build

/-- A builder: a template, and what it is processed with. -/
structure TxBuilder (R : Type) [RecipientProvider R] where
  changeProvider : R
  txTemplate : TxTemplate R
  /-- The coins that can be spent, once there is a source of them. -/
  coinSource : Option (List Coin)
  spProvider : Option (SpPartialSecretProvider R)
  coinSelector : CoinSelector
  maxFeePercent : Nat
  maxFeeAmount : Nat

namespace TxBuilder

variable {R : Type} [RecipientProvider R]

/-- The fees are paid at a rate. -/
def feerate (builder : TxBuilder R) (rate : Nat) : TxBuilder R :=
  { builder with
    txTemplate := { builder.txTemplate with fees := .milliSatsVb rate } }

/-- The fees are paid at a rate in satoshis, saturating in thousandths. -/
def feerateSatVb (builder : TxBuilder R) (satVb : Nat) : TxBuilder R :=
  builder.feerate (min (satVb * 1000) u64Max)

/-- What a template without inputs is funded with. -/
def selection (builder : TxBuilder R) : Option CoinSelection :=
  builder.coinSource.map (fun coins => ⟨builder.coinSelector, coins⟩)

/-- Process the template. -/
def simulate (builder : TxBuilder R) : Outcome (TransactionResult R) :=
  processTransaction builder.txTemplate (some builder.changeProvider)
    builder.selection

/-- The change output of a processed template. -/
def changeRecipient
    (builder : TxBuilder R)
    (result : TransactionResult R) : Option R :=
  result.change.map
    (fun value => setAmount (.value value) builder.changeProvider)

/-- Process the template and turn it into a PSBT. -/
def generate
    (builder : TxBuilder R)
    (miniscript : Miniscript)
    (shuffle : Shuffle Coin × Shuffle R) : Outcome Psbt := do
  let result ←
    processTransaction builder.txTemplate (some builder.changeProvider)
      builder.selection
  match result.error with
  | some error => throw (.err error)
  | none =>
      result.txTemplate.finalize miniscript
        (builder.changeRecipient result) (some shuffle) builder.spProvider
        (network builder.changeProvider) builder.maxFeePercent
        builder.maxFeeAmount false

end TxBuilder

namespace TxSample

/-- Descriptors that derive every field. -/
def miniscript : Miniscript where
  updateInput _ coinPath := some coinPath.2
  updateOutput _ origin := some origin.2

/-- A new builder of the sample wallet with this template. -/
def builder (template : TxTemplate Boxed) : TxBuilder Boxed where
  changeProvider := .provider changeProvider
  txTemplate := template
  coinSource := none
  spProvider := none
  coinSelector _ _ _ := some []
  maxFeePercent := 10
  maxFeeAmount := 2000000

/-- Nothing is moved. -/
def inOrder : Shuffle Coin × Shuffle Boxed :=
  (Shuffle.id Coin, Shuffle.id Boxed)

end TxSample

end Bwk.Tx
