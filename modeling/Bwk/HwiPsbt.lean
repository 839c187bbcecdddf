import Bwk.OrderedMapMoves

namespace Bwk.Hwi

/-!
# PSBTs of the hardware wallets

`hwi/src/utils.rs` and the `sign_tx` of the devices read five fields of a PSBT
input: the derivations of its keys, its three kinds of signatures and its
final witness.  The other fields stay a parameter, so that a frame statement
covers them too.
-/

/-- A serialized value. -/
abbrev Bytes := List UInt8

/-- A `secp256k1::PublicKey`, ordered as its serialization. -/
abbrev SecpKey := Nat

/-- A `bitcoin::PublicKey`. -/
structure PublicKey where
  compressed : Bool
  inner : SecpKey
  deriving Repr, DecidableEq

instance : Ord PublicKey where
  compare :=
    compareLex (compareOn PublicKey.compressed) (compareOn PublicKey.inner)

instance : Std.TransOrd PublicKey :=
  inferInstanceAs (Std.TransCmp
    (compareLex (compareOn PublicKey.compressed)
      (compareOn PublicKey.inner)))

instance : Std.LawfulEqOrd PublicKey where
  eq_of_compare := by
    intro left right same
    obtain ⟨sameForm, sameKey⟩ := compareLex_eq_eq.mp same
    cases left
    cases right
    simp_all [compareOn]

/-- The x-only key and the leaf hash a tapscript signature is for. -/
structure TapScriptKey where
  xOnlyKey : Nat
  leafHash : Nat
  deriving Repr, DecidableEq

instance : Ord TapScriptKey where
  compare :=
    compareLex (compareOn TapScriptKey.xOnlyKey)
      (compareOn TapScriptKey.leafHash)

instance : Std.TransOrd TapScriptKey :=
  inferInstanceAs (Std.TransCmp
    (compareLex (compareOn TapScriptKey.xOnlyKey)
      (compareOn TapScriptKey.leafHash)))

instance : Std.LawfulEqOrd TapScriptKey where
  eq_of_compare := by
    intro left right same
    obtain ⟨sameKey, sameLeaf⟩ := compareLex_eq_eq.mp same
    cases left
    cases right
    simp_all [compareOn]

/-- The fingerprint of a master key. -/
abbrev Fingerprint := Nat

/-- A derivation path, hardened steps from `2 ^ 31` on. -/
abbrev DerivationPath := List Nat

abbrev KeySource := Fingerprint × DerivationPath

abbrev EcdsaSignature := Bytes

/-- A `taproot::Signature`. -/
structure TaprootSignature where
  signature : Bytes
  sighashType : UInt8
  deriving Repr, DecidableEq

/-- A PSBT input; `fields` are the ones nothing here reads. -/
structure Input (Fields : Type) where
  bip32Derivation : BTreeMap SecpKey KeySource
  partialSigs : BTreeMap PublicKey EcdsaSignature
  tapScriptSigs : BTreeMap TapScriptKey TaprootSignature
  tapKeySig : Option TaprootSignature
  finalScriptWitness : Option (List Bytes)
  fields : Fields

/-- A PSBT; `shared` are the fields outside its inputs. -/
structure Psbt (Shared Fields : Type) where
  shared : Shared
  inputs : List (Input Fields)

/-- Why a device did not answer. -/
inductive DeviceCause where
  | transport (text : String)
  | rpc (code : Int) (message : Option String) (data : Option Bytes)
  | psbt (text : String)
  | reported (text : String)
  deriving Repr, DecidableEq

/-- The errors of the devices that are modelled. -/
inductive HwiError where
  | deviceNotFound
  | deviceDidNotSign
  | unsupportedInput
  | device (cause : DeviceCause)
  | userRefused
  | networkMismatch
  deriving Repr, DecidableEq

/-- `HWI::sign_tx`: the PSBT afterwards and the result. -/
abbrev SignTx (Shared Fields : Type) :=
  Psbt Shared Fields → Psbt Shared Fields × Except HwiError Unit

section Adds

variable {Shared Fields : Type}

/-- Nothing but the signatures of an input changed, and none under a key is
gone. -/
structure Input.Adds (before after : Input Fields) : Prop where
  bip32Derivation : after.bip32Derivation = before.bip32Derivation
  finalScriptWitness : after.finalScriptWitness = before.finalScriptWitness
  fields : after.fields = before.fields
  partialSigs : ∀ key ∈ before.partialSigs, key ∈ after.partialSigs
  tapScriptSigs : ∀ key ∈ before.tapScriptSigs, key ∈ after.tapScriptSigs
  tapKeySig : before.tapKeySig.isSome → after.tapKeySig.isSome

/-- Nothing but the signatures of a PSBT changed, and none under a key is
gone. -/
structure Psbt.Adds (before after : Psbt Shared Fields) : Prop where
  shared : after.shared = before.shared
  inputs : List.Forall₂ Input.Adds before.inputs after.inputs

/-- A device whose `sign_tx` only adds signatures, whatever it returns. -/
def OnlyAdds (signTx : SignTx Shared Fields) : Prop :=
  ∀ psbt : Psbt Shared Fields, psbt.Adds (signTx psbt).1

theorem Input.Adds.refl (input : Input Fields) : input.Adds input where
  bip32Derivation := rfl
  finalScriptWitness := rfl
  fields := rfl
  partialSigs := fun _ member => member
  tapScriptSigs := fun _ member => member
  tapKeySig := id

theorem Input.Adds.trans
    {first second third : Input Fields}
    (earlier : first.Adds second)
    (later : second.Adds third) :
    first.Adds third where
  bip32Derivation := later.bip32Derivation.trans earlier.bip32Derivation
  finalScriptWitness :=
    later.finalScriptWitness.trans earlier.finalScriptWitness
  fields := later.fields.trans earlier.fields
  partialSigs := fun key member =>
    later.partialSigs key (earlier.partialSigs key member)
  tapScriptSigs := fun key member =>
    later.tapScriptSigs key (earlier.tapScriptSigs key member)
  tapKeySig := later.tapKeySig ∘ earlier.tapKeySig

theorem Psbt.Adds.refl (psbt : Psbt Shared Fields) : psbt.Adds psbt where
  shared := rfl
  inputs := List.forall₂_same.mpr (fun input _ => Input.Adds.refl input)

def Psbt.signatures (psbt : Psbt Shared Fields) :
    List (BTreeMap PublicKey EcdsaSignature ×
      BTreeMap TapScriptKey TaprootSignature × Option TaprootSignature) :=
  psbt.inputs.map (fun input =>
    (input.partialSigs, input.tapScriptSigs, input.tapKeySig))

theorem Psbt.adds_of_index
    {before after : Psbt Shared Fields}
    (shared : after.shared = before.shared)
    (sameLength : after.inputs.length = before.inputs.length)
    (each :
      ∀ (index : Nat) (input : Input Fields),
        before.inputs[index]? = some input →
        ∃ signed, after.inputs[index]? = some signed ∧ input.Adds signed) :
    before.Adds after where
  shared := shared
  inputs := by
    refine List.forall₂_iff_get.mpr ⟨sameLength.symm, ?_⟩
    intro index bound signedBound
    obtain ⟨signed, here, adds⟩ :=
      each index before.inputs[index] (List.getElem?_eq_getElem bound)
    rw [List.getElem?_eq_getElem signedBound] at here
    cases here
    exact adds

theorem Psbt.Adds.at_index
    {before after : Psbt Shared Fields}
    (adds : before.Adds after)
    {index : Nat}
    {input : Input Fields}
    (here : before.inputs[index]? = some input) :
    ∃ signed, after.inputs[index]? = some signed ∧ input.Adds signed := by
  obtain ⟨bound, rfl⟩ := List.getElem?_eq_some_iff.mp here
  have sameLength := adds.inputs.length_eq
  refine ⟨after.inputs[index], List.getElem?_eq_getElem (by omega), ?_⟩
  exact adds.inputs.get bound (by omega)

theorem Psbt.Adds.trans
    {first second third : Psbt Shared Fields}
    (earlier : first.Adds second)
    (later : second.Adds third) :
    first.Adds third := by
  refine Psbt.adds_of_index (later.shared.trans earlier.shared)
    (later.inputs.length_eq.symm.trans earlier.inputs.length_eq.symm) ?_
  intro index input here
  obtain ⟨middle, middleHere, firstAdds⟩ := earlier.at_index here
  obtain ⟨final, finalHere, secondAdds⟩ := later.at_index middleHere
  exact ⟨final, finalHere, firstAdds.trans secondAdds⟩

end Adds

end Bwk.Hwi
