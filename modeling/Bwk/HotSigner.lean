import Bwk.HwiPsbt
import Bwk.SlotWrites
import Bwk.TxStore

namespace Bwk.Sign

open Hwi (Bytes SecpKey PublicKey TapScriptKey Fingerprint DerivationPath
  KeySource EcdsaSignature TaprootSignature)

/-!
# The hot signer

`sign/src/hot_signer.rs` and `descriptor/src/derivator.rs`: the signer walks
the inputs of a PSBT once for each of its descriptors and signs those the
descriptor derives.  A turn that panics, or that never ends, is `none`.  What
a turn stores into its input is collected; nothing in the turn reads it.
-/

/-- `sign::Error`, as far as signing ends with it. -/
inductive SignError where
  | sighashFail
  | invalidSignature
  | missingWitnessUtxo
  | spkNotMatch
  | derivationPath
  | notSegwit
  | notTapKey
  | internalKeyNotMatch
  | insanePrevouts
  | signingInfo
  | insaneTaptreeInfo
  deriving Repr, DecidableEq

inductive NetworkKind where
  | main
  | test
  deriving Repr, DecidableEq

/-- The wildcard of an extended key. -/
inductive Wildcard where
  | none
  | unhardened
  | hardened
  deriving Repr, DecidableEq

/-- A `DescriptorMultiXKey`. -/
structure MultiXPub where
  network : NetworkKind
  derivationPaths : List DerivationPath
  wildcard : Wildcard
  deriving Repr, DecidableEq

inductive DescriptorPublicKey where
  | single
  | xPub
  | multiXPub (key : MultiXPub)
  deriving Repr, DecidableEq

def DescriptorPublicKey.multi? : DescriptorPublicKey → Option MultiXPub
  | .multiXPub key => some key
  | .single | .xPub => none

/-- A descriptor without multipath: the script of its address at an unhardened
index, if it has addresses. -/
structure SingleDescriptor where
  script : Nat → Option ScriptBuf

/-- A descriptor: its keys and what `into_single_descriptors` makes of it. -/
structure Descriptor where
  keys : List DescriptorPublicKey
  singleDescriptors : Option (List SingleDescriptor)

/-- `derivator::Error`. -/
inductive DerivatorError where
  | notMultiXpub
  | wrongNetwork
  | multiPathCount
  | multiPath
  | wildcard
  deriving Repr, DecidableEq

/-- The first hardened child number. -/
def hardened : Nat := 2 ^ 31

/-- The receiving and the change descriptor. -/
structure SpkDerivator where
  recv : SingleDescriptor
  change : SingleDescriptor

namespace SpkDerivator

/-- `SpkDerivator::new`. -/
def new
    (descriptor : Descriptor)
    (network : NetworkKind) : Option (Except DerivatorError SpkDerivator) :=
  let keys := descriptor.keys.filterMap DescriptorPublicKey.multi?
  if descriptor.keys.any (fun key => key.multi?.isNone) then
    some (.error .notMultiXpub)
  else if keys.any (fun key => key.network ≠ network) then
    some (.error .wrongNetwork)
  else if keys.any (fun key =>
      key.derivationPaths.any (fun path =>
        path.length ≠ 1 || path.any (fun child => child ≥ hardened))) then
    some (.error .multiPath)
  else if keys.any (fun key =>
      key.derivationPaths.any (fun _ => key.wildcard ≠ .unhardened)) then
    some (.error .wildcard)
  else
    match descriptor.singleDescriptors with
    | none => none
    | some [recv, change] => some (.ok ⟨recv, change⟩)
    | some _ => some (.error .multiPathCount)

/-- The script of `receive_at`, which takes unhardened indexes only. -/
def receiveAt (derivator : SpkDerivator) (index : Nat) : Option ScriptBuf :=
  if index < hardened then derivator.recv.script index else none

/-- The script of `change_at`. -/
def changeAt (derivator : SpkDerivator) (index : Nat) : Option ScriptBuf :=
  if index < hardened then derivator.change.script index else none

end SpkDerivator

/-- `account_path`: whether the last two steps are of the change, and the
index. -/
def accountPath (path : DerivationPath) : Except SignError (Bool × Nat) :=
  match path.drop (path.length - 2) with
  | [0, index] => .ok (false, index)
  | [1, index] => .ok (true, index)
  | _ => .error .derivationPath

/-- What signing reads of an input beside its derivations; `rest` is what only
the sighash reads. -/
structure SignFields (Rest : Type) where
  witnessUtxo : Option TxOut
  tapInternalKey : Option Nat
  /-- The leaves a key signs, and where the key comes from. -/
  tapKeyOrigins : BTreeMap Nat (List Nat × KeySource)
  tapMerkleRoot : Option Nat
  rest : Rest

abbrev Input (Rest : Type) :=
  Hwi.Input (SignFields Rest)

/-- A PSBT; `Shared` has its unsigned transaction. -/
abbrev Psbt (Shared Rest : Type) :=
  Hwi.Psbt Shared (SignFields Rest)

/-- Where a signature is stored. -/
inductive Slot where
  | partialSig (key : PublicKey)
  | tapKeySig
  | tapScriptSig (key : TapScriptKey)
  deriving Repr, DecidableEq

/-- A signature with its sighash type. -/
inductive Signature where
  | ecdsa (signature : EcdsaSignature)
  | taproot (signature : TaprootSignature)
  deriving Repr, DecidableEq

/-- A signature stored into an input. -/
inductive Stored where
  | partialSig (key : PublicKey) (signature : EcdsaSignature)
  | tapKeySig (signature : TaprootSignature)
  | tapScriptSig (key : TapScriptKey) (signature : TaprootSignature)
  deriving Repr, DecidableEq

def Stored.write : Stored → Slot × Signature
  | partialSig key signature => (.partialSig key, .ecdsa signature)
  | tapKeySig signature => (.tapKeySig, .taproot signature)
  | tapScriptSig key signature => (.tapScriptSig key, .taproot signature)

def store {Rest : Type} (input : Input Rest) : Stored → Input Rest
  | .partialSig key signature =>
      { input with partialSigs := input.partialSigs.insert key signature }
  | .tapKeySig signature => { input with tapKeySig := some signature }
  | .tapScriptSig key signature =>
      { input with tapScriptSigs := input.tapScriptSigs.insert key signature }

/-- Store the signatures of a turn. -/
def storeAll
    {Rest : Type}
    (input : Input Rest)
    (stored : List Stored) : Input Rest :=
  stored.foldl store input

/-- What is used of the `secp256k1` and `bitcoin` crates. -/
structure Crates (SecretKey Shared Rest : Type) where
  publicKey : SecretKey → SecpKey
  xOnly : SecpKey → Nat
  tapTweak : SecretKey → Option Nat → SecretKey
  /-- The DER form of `sign_ecdsa_with_noncedata`. -/
  signEcdsa : Nat → SecretKey → Nat → Bytes
  verifyEcdsa : Nat → Bytes → SecpKey → Bool
  signSchnorr : Nat → SecretKey → Bytes
  /-- `Psbt::sighash_ecdsa`: the hash and the sighash type. -/
  sighashEcdsa : Shared → Nat → Option TxOut → Rest → Option (Nat × Nat)
  taprootKeySpend : Shared → Nat → List TxOut → Option Nat
  taprootScriptSpend : Shared → Nat → List TxOut → Nat → Option Nat

/-- `EcdsaSighashType::All`. -/
def sighashAll : Nat := 1

/-- `TapSighashType::Default`. -/
def sighashDefault : UInt8 := 0

structure HotSigner (SecretKey : Type) where
  fingerprint : Fingerprint
  /-- `secret_key_at`; a path that cannot be derived panics. -/
  secretKeyAt : DerivationPath → Option SecretKey
  descriptors : List Descriptor
  network : NetworkKind

section Turn

variable {SecretKey Shared Rest : Type}
variable (crates : Crates SecretKey Shared Rest)
variable (signer : HotSigner SecretKey) (derivator : SpkDerivator)

/-- The check that an input pays to the script of a path. -/
def checkSpk
    (witnessUtxo : Option TxOut)
    (path : DerivationPath) : Option (Except SignError Unit) :=
  match witnessUtxo with
  | none => some (.error .missingWitnessUtxo)
  | some wit =>
      match accountPath path with
      | .error reason => some (.error reason)
      | .ok (isChange, index) =>
          (if isChange then derivator.changeAt index
            else derivator.receiveAt index).map
            (fun expected =>
              if wit.scriptPubkey ≠ expected then .error .spkNotMatch
              else .ok ())

/-- The turns of the loop that grinds the nonce, as long as the counter does
not wrap around. -/
def grindFrom
    (hash : Nat)
    (key : SecretKey) : Nat → Nat → Option Bytes
  | 0, _ => none
  | left + 1, counter =>
      let signature := crates.signEcdsa hash key counter
      if signature.length = 70 then some signature
      else grindFrom hash key left (counter + 1)

/-- The nonce is ground until the signature has its full size. -/
def grind (hash : Nat) (key : SecretKey) : Option Bytes :=
  grindFrom crates hash key (2 ^ 32) 0

/-- `inner_sign_input_segwit`. -/
def innerSignInputSegwit
    (hash : Nat)
    (input : Input Rest) :
    List DerivationPath → Option (Except SignError Unit × List Stored)
  | [] => some (.ok (), [])
  | path :: later =>
      match signer.secretKeyAt path with
      | none => none
      | some key =>
          let pubkey := crates.publicKey key
          if pubkey ∉ input.bip32Derivation then
            innerSignInputSegwit hash input later
          else
            match checkSpk derivator input.fields.witnessUtxo path with
            | none => none
            | some (.error reason) => some (.error reason, [])
            | some (.ok ()) =>
                match grind crates hash key with
                | none => none
                | some signature =>
                    if crates.verifyEcdsa hash signature pubkey then
                      (innerSignInputSegwit hash input later).map
                        (fun (result, stored) =>
                          (result,
                            .partialSig ⟨true, pubkey⟩
                              (signature ++ [UInt8.ofNat sighashAll]) ::
                                stored))
                    else
                      some (.error .invalidSignature, [])

def ownPaths (input : Input Rest) : List DerivationPath :=
  input.bip32Derivation.toList.filterMap (fun entry =>
    if entry.2.1 = signer.fingerprint then some entry.2.2 else none)

/-- `segwit_hash`. -/
def segwitHash
    (shared : Shared)
    (index : Nat)
    (input : Input Rest) : Except SignError Nat :=
  if input.bip32Derivation.isEmpty then
    .error .notSegwit
  else
    match
        crates.sighashEcdsa shared index input.fields.witnessUtxo
          input.fields.rest with
    | none => .error .sighashFail
    | some (hash, sighashType) =>
        if sighashType ≠ sighashAll then .error .sighashFail else .ok hash

/-- `sign_input_segwit`. -/
def signInputSegwit
    (shared : Shared)
    (index : Nat)
    (input : Input Rest) : Option (Except SignError Unit × List Stored) :=
  if input.fields.witnessUtxo.isNone then
    some (.error .missingWitnessUtxo, [])
  else
    match segwitHash crates shared index input with
    | .error reason => some (.error reason, [])
    | .ok hash =>
        innerSignInputSegwit crates signer derivator hash input
          (ownPaths signer input)

/-- `sign_input_tapkey`. -/
def signInputTapkey
    (shared : Shared)
    (prevouts : List TxOut)
    (index : Nat)
    (input : Input Rest) : Option (Except SignError Unit × List Stored) :=
  if input.fields.witnessUtxo.isNone then
    some (.error .missingWitnessUtxo, [])
  else
    match input.fields.tapInternalKey with
    | none => some (.error .notTapKey, [])
    | some internalKey =>
        match input.fields.tapKeyOrigins[internalKey]? with
        | none => some (.error .notTapKey, [])
        | some (_, fingerprint, path) =>
            if fingerprint ≠ signer.fingerprint then
              some (.ok (), [])
            else
              match checkSpk derivator input.fields.witnessUtxo path with
              | none => none
              | some (.error reason) => some (.error reason, [])
              | some (.ok ()) =>
                  match signer.secretKeyAt path with
                  | none => none
                  | some key =>
                      if crates.xOnly (crates.publicKey key) ≠ internalKey then
                        some (.error .internalKeyNotMatch, [])
                      else
                        match crates.taprootKeySpend shared index prevouts with
                        | none => some (.error .insanePrevouts, [])
                        | some sighash =>
                            some (.ok (),
                              [.tapKeySig
                                ⟨crates.signSchnorr sighash
                                    (crates.tapTweak key
                                      input.fields.tapMerkleRoot),
                                  sighashDefault⟩])

def ownLeaves (input : Input Rest) : List (TapScriptKey × DerivationPath) :=
  (input.fields.tapKeyOrigins.toList.filter
      (fun entry => entry.2.2.1 = signer.fingerprint)).flatMap
    (fun entry => entry.2.1.map (fun leaf => (⟨entry.1, leaf⟩, entry.2.2.2)))

/-- The loop of `sign_input_taptree`. -/
def signLeaves
    (shared : Shared)
    (prevouts : List TxOut)
    (index : Nat) :
    List (TapScriptKey × DerivationPath) →
      Option (Except SignError Unit × List Stored)
  | [] => some (.ok (), [])
  | (leaf, path) :: later =>
      match signer.secretKeyAt path with
      | none => none
      | some key =>
          match
              crates.taprootScriptSpend shared index prevouts
                leaf.leafHash with
          | none => some (.error .insaneTaptreeInfo, [])
          | some sighash =>
              (signLeaves shared prevouts index later).map
                (fun (result, stored) =>
                  (result,
                    .tapScriptSig leaf
                      ⟨crates.signSchnorr sighash key, sighashDefault⟩ ::
                        stored))

/-- `sign_input_taptree`. -/
def signInputTaptree
    (shared : Shared)
    (prevouts : List TxOut)
    (index : Nat)
    (input : Input Rest) : Option (Except SignError Unit × List Stored) :=
  if input.fields.witnessUtxo.isNone then
    some (.error .missingWitnessUtxo, [])
  else
    signLeaves crates signer shared prevouts index (ownLeaves signer input)

/-- A script that does not match is no failure of the loop over the inputs. -/
def settled : Except SignError Unit → Except SignError Bool
  | .ok () => .ok true
  | .error .spkNotMatch => .ok false
  | .error reason => .error reason

/-- One turn of the loop of `inner_sign`: whether the input was signed, or why
the loop is left. -/
def signInput
    (shared : Shared)
    (prevouts : List TxOut)
    (index : Nat)
    (input : Input Rest) : Option (Except SignError Bool × List Stored) :=
  match
      !input.bip32Derivation.isEmpty, input.fields.tapInternalKey.isSome,
        !input.fields.tapKeyOrigins.isEmpty with
  | true, false, false =>
      (signInputSegwit crates signer derivator shared index input).map
        (fun (result, stored) => (settled result, stored))
  | false, false, true =>
      (signInputTaptree crates signer shared prevouts index input).map
        (fun (result, stored) => (settled result, stored))
  | false, true, true =>
      match
          signInputTapkey crates signer derivator shared prevouts index
            input with
      | none => none
      | some (.error reason, stored) => some (settled (.error reason), stored)
      | some (.ok (), stored) =>
          (signInputTaptree crates signer shared prevouts index input).map
            (fun (result, more) => (settled result, stored ++ more))
  | false, false, false => some (.ok false, [])
  -- The source takes these for unreachable.
  | _, _, _ => none

end Turn

section Loops

variable {SecretKey Shared Rest : Type}
variable (crates : Crates SecretKey Shared Rest)

/-- The loop of `inner_sign` over the inputs. -/
def signInputs
    (signer : HotSigner SecretKey)
    (derivator : SpkDerivator)
    (shared : Shared)
    (prevouts : List TxOut) :
    Nat → List (Input Rest) →
      Option (Except SignError Bool × List (Input Rest))
  | _, [] => some (.ok false, [])
  | index, input :: later =>
      match
          signInput crates signer derivator shared prevouts index input with
      | none => none
      | some (.error reason, stored) =>
          some (.error reason, storeAll input stored :: later)
      | some (.ok signed, stored) =>
          (signInputs signer derivator shared prevouts (index + 1) later).map
            (fun (result, inputs) =>
              (result.map (signed || ·), storeAll input stored :: inputs))

/-- The outputs the inputs spend, as far as they are known. -/
def prevoutsOf (inputs : List (Input Rest)) : List TxOut :=
  inputs.filterMap (fun input => input.fields.witnessUtxo)

/-- `inner_sign`. -/
def innerSign
    (signer : HotSigner SecretKey)
    (psbt : Psbt Shared Rest)
    (descriptor : Descriptor) :
    Option (Except SignError Unit × Psbt Shared Rest) :=
  match SpkDerivator.new descriptor signer.network with
  | some (.ok derivator) =>
      (signInputs crates signer derivator psbt.shared
          (prevoutsOf psbt.inputs) 0 psbt.inputs).map
        (fun (result, inputs) =>
          (match result with
            | .error reason => .error reason
            | .ok signedAny => if signedAny then .ok () else .error .signingInfo,
            { psbt with inputs := inputs }))
  | some (.error _) | none => none

/-- `HotSigner::sign`: what a descriptor ends with is logged only. -/
def sign
    (signer : HotSigner SecretKey)
    (psbt : Psbt Shared Rest) : Option (Psbt Shared Rest) :=
  signer.descriptors.foldlM
    (fun psbt descriptor =>
      (innerSign crates signer psbt descriptor).map Prod.snd)
    psbt

structure SigningManager (SecretKey : Type) where
  bip32Signers : List (HotSigner SecretKey)
  keyed : (bip32Signers.map HotSigner.fingerprint).Nodup

/-- `sign_psbt`. -/
def SigningManager.signPsbt
    (manager : SigningManager SecretKey)
    (psbt : Psbt Shared Rest) : Option (Psbt Shared Rest) :=
  manager.bip32Signers.foldlM
    (fun psbt signer => sign crates signer psbt) psbt

end Loops

end Bwk.Sign
