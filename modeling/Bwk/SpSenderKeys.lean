import Bwk.SpEligibility
import Bwk.TxStore
import Mathlib.Algebra.BigOperators.Group.List.Basic
import Mathlib.Data.List.Sort

namespace Bwk

/-!
# The keys a sender adds up

`sp/src/account/recipient.rs` and `sp/src/core/sending.rs`: before its inputs
are signed, a wallet adds up the secrets of those that will count.  Afterwards
a receiver adds up the public keys it reads from the signed inputs
(`sp/src/core/receiving.rs`).
-/

/-- What the crates supply about keys, points and hashes. -/
structure InputCrate (S G X : Type)
    [CommRing S] [AddCommGroup G] [Module S G]
    extends XOnlyKeys G X, KeyCrate G X where
  generator : G
  faithful : ∀ secret : S, secret • generator = 0 → secret = 0
  /-- A public key, compressed or not. -/
  serialize : Bool → G → Bytes
  compressed_length : ∀ point, (serialize true point).length = 33
  uncompressed_length : ∀ point, (serialize false point).length = 65
  publicKey_serialize :
    ∀ point, point ≠ 0 → publicKey (serialize true point) = some point
  serializeX : X → Bytes
  serializeX_length : ∀ xonly, (serializeX xonly).length = 32
  xOnlyKey_serializeX : ∀ xonly, xOnlyKey (serializeX xonly) = some xonly
  hash160_length : ∀ bytes, (hash160 bytes).length = 20
  /-- The tweak of an internal key and the root of its tree. -/
  tapTweakHash : X → Option Bytes → S
  /-- The 36 bytes of an outpoint. -/
  outpointBytes : OutPoint → Bytes
  /-- `InputsHash`, of the smallest outpoint and the sum of the keys. -/
  inputsHash : Bytes → G → S

/-- A derived descriptor key, as far as an input key is looked for. -/
structure DescriptorKey (G : Type) [AddCommGroup G] where
  point : G
  finite : point ≠ 0
  compressed : Bool
  masterFingerprint : Nat
  fullDerivationPath : Option (List Nat)

/-- A derived descriptor; keys of witness programs are compressed. -/
inductive SpendDescriptor (G : Type) [AddCommGroup G] where
  | pkh (key : DescriptorKey G)
  | wpkh (key : DescriptorKey G) (compressed : key.compressed = true)
  | shWpkh (key : DescriptorKey G) (compressed : key.compressed = true)
  /-- A script hash of anything else. -/
  | sh (redeemScript : Bytes) (foreign : isP2wpkh redeemScript = false)
  | tr (internalKey : DescriptorKey G) (merkleRoot : Option Bytes)
  | wsh (program : Bytes) (length : program.length = 32)
  | bare (script : Bytes)

inductive InputSpendInfo (S G : Type) [AddCommGroup G] where
  | sp (tweak : S)
  /-- `none` is a descriptor that has no key at the coin's path. -/
  | bip32 (derived : Option (SpendDescriptor G))

structure InputCoin (S G : Type) [AddCommGroup G] where
  outpoint : OutPoint
  scriptPubkey : Bytes
  spendInfo : InputSpendInfo S G

/-- Why no partial secret was made. -/
inductive SecretError where
  | coin
  | spPartialSecret
  | tapTweak
  deriving Repr, DecidableEq

/-- Why keys could not be added up. -/
inductive SumError where
  | noInputProvided
  | noOutpointsProvided
  | secp256k1
  deriving Repr, DecidableEq

namespace InputCrate

variable {S G X : Type} [CommRing S] [AddCommGroup G] [Module S G]
variable (crate : InputCrate S G X)

def outputKey (internalKey : X) (merkleRoot : Option Bytes) : X :=
  crate.key
    (crate.even internalKey +
      crate.tapTweakHash internalKey merkleRoot • crate.generator)

def scriptPubkey : SpendDescriptor G → Bytes
  | .pkh key => p2pkh (crate.hash160 (crate.serialize key.compressed key.point))
  | .wpkh key _ =>
      p2wpkh (crate.hash160 (crate.serialize key.compressed key.point))
  | .shWpkh key _ =>
      p2sh (crate.hash160
        (p2wpkh (crate.hash160 (crate.serialize key.compressed key.point))))
  | .sh redeemScript _ => p2sh (crate.hash160 redeemScript)
  | .tr internalKey merkleRoot =>
      p2tr (crate.serializeX
        (crate.outputKey (crate.key internalKey.point) merkleRoot))
  | .wsh program _ => [0x00, 0x20] ++ program
  | .bare script => script

section Sender

variable [DecidableEq S] [DecidableEq G] [DecidableEq X]

/-- The point is the one that stands for its x-only key. -/
def isEven (point : G) : Bool :=
  point = crate.even (crate.key point)

/-- `SecretKey::add_tweak`. -/
def addTweak (secret tweak : S) : Except SumError S :=
  if secret + tweak = 0 then .error .secp256k1 else .ok (secret + tweak)

/-- `SecretKey::mul_tweak`. -/
def mulTweak (secret tweak : S) : Except SumError S :=
  if tweak = 0 then .error .secp256k1 else .ok (tweak * secret)

def heldSecret
    (xprivs : BTreeMap Nat (List Nat → Option S))
    (key : DescriptorKey G) : Except SecretError S :=
  match xprivs[key.masterFingerprint]?, key.fullDerivationPath with
  | some xpriv, some path =>
      match xpriv path with
      | some secret => .ok secret
      | none => .error .spPartialSecret
  | _, _ => .error .spPartialSecret

/-- The input key of a silent payment coin. -/
def spInputKey
    (bSpend tweak : S) : Except SecretError (S × Bool) :=
  if tweak = 0 then
    .error .spPartialSecret
  else
    match addTweak bSpend tweak with
    | .ok secret => .ok (secret, true)
    | .error _ => .error .spPartialSecret

/-- The input key of a key hash; an uncompressed key does not count. -/
def singleKeyInputKey
    (xprivs : BTreeMap Nat (List Nat → Option S))
    (key : DescriptorKey G) : Except SecretError (Option (S × Bool)) :=
  if !key.compressed then
    .ok none
  else do
    let secret ← heldSecret xprivs key
    if secret • crate.generator ≠ key.point then
      .error .spPartialSecret
    else
      .ok (some (secret, false))

/-- The input key of a taproot output, whatever path it is spent with. -/
def taprootInputKey
    (xprivs : BTreeMap Nat (List Nat → Option S))
    (internalKey : DescriptorKey G)
    (merkleRoot : Option Bytes) : Except SecretError (Option (S × Bool)) :=
  let xonly := crate.key internalKey.point
  if crate.serializeX xonly = numsH then
    .ok none
  else do
    let secret ← heldSecret xprivs internalKey
    -- The key pair is negated to its even point before it is tweaked.
    let even := if crate.isEven (secret • crate.generator) then secret else -secret
    let tweaked :=
      even +
        crate.tapTweakHash (crate.key (secret • crate.generator)) merkleRoot
    if tweaked = 0 then
      .error .tapTweak
    else if crate.key (tweaked • crate.generator) ≠
        crate.outputKey xonly merkleRoot then
      .error .spPartialSecret
    else
      .ok (some (tweaked, true))

/-- The secret a coin adds to the sum, and whether it is a taproot key. -/
def bip352InputKey
    (bSpend : S)
    (xprivs : BTreeMap Nat (List Nat → Option S))
    (coin : InputCoin S G) : Except SecretError (Option (S × Bool)) :=
  match coin.spendInfo with
  | .sp tweak => (spInputKey bSpend tweak).map some
  | .bip32 none => .error .coin
  | .bip32 (some descriptor) =>
      if crate.scriptPubkey descriptor ≠ coin.scriptPubkey then
        .error .spPartialSecret
      else
        match descriptor with
        | .pkh key | .wpkh key _ | .shWpkh key _ =>
            crate.singleKeyInputKey xprivs key
        | .tr internalKey merkleRoot =>
            crate.taprootInputKey xprivs internalKey merkleRoot
        | .sh _ _ | .wsh _ _ | .bare _ => .ok none

/-- A secret whose point, if it is a taproot key, is even. -/
def signedSecret (key : S × Bool) : S :=
  if key.2 ∧ ¬ crate.isEven (key.1 • crate.generator) then -key.1 else key.1

def getASumSecretKeys (input : List (S × Bool)) : Except SumError S :=
  match input.map crate.signedSecret with
  | [] => .error .noInputProvided
  | head :: tail => tail.foldlM addTweak head

def calculateInputHash
    (outpoints : List OutPoint)
    (aSum : G) : Except SumError S :=
  match ((outpoints.map crate.outpointBytes).mergeSort
      (fun first second => first ≤ second)).head? with
  | some smallest => .ok (crate.inputsHash smallest aSum)
  | none => .error .noOutpointsProvided

def calculatePartialSecret
    (inputKeys : List (S × Bool))
    (outpoints : List OutPoint) : Except SumError S := do
  let aSum ← crate.getASumSecretKeys inputKeys
  let inputHash ←
    crate.calculateInputHash outpoints (aSum • crate.generator)
  mulTweak aSum inputHash

def partialSecret
    (bSpend : S)
    (xprivs : BTreeMap Nat (List Nat → Option S))
    (inputs : List (InputCoin S G)) : Except SecretError S := do
  let inputKeys ← inputs.mapM (crate.bip352InputKey bSpend xprivs)
  match crate.calculatePartialSecret (inputKeys.filterMap id)
      (inputs.map InputCoin.outpoint) with
  | .ok secret => .ok secret
  | .error _ => .error .spPartialSecret

/-- `PublicKey::combine_keys`. -/
def combineKeys (pubkeys : List G) : Except SumError G :=
  if pubkeys = [] ∨ pubkeys.sum = 0 then
    .error .secp256k1
  else
    .ok pubkeys.sum

def calculateTweakData
    (inputPubkeys : List G)
    (outpoints : List OutPoint) : Except SumError G := do
  let inputSum ← combineKeys inputPubkeys
  let inputHash ← crate.calculateInputHash outpoints inputSum
  if inputHash = 0 then .error .secp256k1 else .ok (inputHash • inputSum)

/-- The keys of the inputs that count; the first that cannot be read fails. -/
def inputPubkeys
    (inputs : List (FinalizedInput × Bytes)) : Except InputError (List G) :=
  (inputs.mapM (fun spend =>
    eligibleInputPubkey crate.toXOnlyKeys crate.toKeyCrate spend.1
      spend.2)).map (List.filterMap id)

end Sender

end InputCrate

end Bwk
