import Bwk.HotSigner

namespace Bwk.Sign

open Hwi (SecpKey KeySource TapScriptKey DerivationPath)

/-!
# A turn of the hot signer

What a turn does to its input depends on what the input says and not on the
signatures it holds, and the turns of all loops agree on the signature for a
place.
-/

section Input

variable {Rest : Type}

def base (input : Input Rest) :
    BTreeMap SecpKey KeySource × SignFields Rest :=
  (input.bip32Derivation, input.fields)

def signatures (input : Input Rest) : Slot → Option Signature
  | .partialSig key => (input.partialSigs[key]?).map .ecdsa
  | .tapKeySig => input.tapKeySig.map .taproot
  | .tapScriptSig key => (input.tapScriptSigs[key]?).map .taproot

@[simp] theorem base_store (input : Input Rest) (stored : Stored) :
    base (store input stored) = base input := by
  cases stored <;> rfl

variable (input : Input Rest)

@[simp] theorem finalScriptWitness_store
    (stored : Stored) :
    (store input stored).finalScriptWitness = input.finalScriptWitness := by
  cases stored <;> rfl

@[simp] theorem base_storeAll (input : Input Rest) (stored : List Stored) :
    base (storeAll input stored) = base input := by
  induction stored generalizing input with
  | nil =>
      rfl
  | cons first later inductionHypothesis =>
      exact (inductionHypothesis (store input first)).trans (base_store ..)

@[simp] theorem finalScriptWitness_storeAll
    (stored : List Stored) :
    (storeAll input stored).finalScriptWitness =
      input.finalScriptWitness := by
  induction stored generalizing input with
  | nil =>
      rfl
  | cons first later inductionHypothesis =>
      exact (inductionHypothesis (store input first)).trans
        (finalScriptWitness_store ..)

theorem storeAll_append
    (stored more : List Stored) :
    storeAll input (stored ++ more) =
      storeAll (storeAll input stored) more :=
  List.foldl_append

theorem signatures_store (input : Input Rest) (stored : Stored) :
    signatures (store input stored) =
      Function.update (signatures input) stored.write.1
        (some stored.write.2) := by
  funext slot
  rw [Function.update_apply]
  cases stored with
  | partialSig key signature =>
      cases slot with
      | partialSig other =>
          simp only [signatures, store, BTreeMap.getElem?_insert_eq,
            Stored.write, Slot.partialSig.injEq]
          split
          · next same =>
              rw [if_pos same.symm]
              rfl
          · next different =>
              rw [if_neg (fun same => different same.symm)]
      | tapKeySig | tapScriptSig other =>
          simp [signatures, store, Stored.write]
  | tapKeySig signature =>
      cases slot with
      | partialSig other | tapKeySig | tapScriptSig other =>
          simp [signatures, store, Stored.write]
  | tapScriptSig key signature =>
      cases slot with
      | partialSig other | tapKeySig =>
          simp [signatures, store, Stored.write]
      | tapScriptSig other =>
          simp only [signatures, store, BTreeMap.getElem?_insert_eq,
            Stored.write, Slot.tapScriptSig.injEq]
          split
          · next same =>
              rw [if_pos same.symm]
              rfl
          · next different =>
              rw [if_neg (fun same => different same.symm)]

theorem signatures_storeAll (input : Input Rest) (stored : List Stored) :
    signatures (storeAll input stored) =
      Slots.written (signatures input) (stored.map Stored.write) := by
  induction stored generalizing input with
  | nil =>
      rfl
  | cons first later inductionHypothesis =>
      refine (inductionHypothesis (store input first)).trans ?_
      rw [signatures_store]
      rfl

theorem input_ext
    {left right : Input Rest}
    (sameBase : base left = base right)
    (witness : left.finalScriptWitness = right.finalScriptWitness)
    (holds : signatures left = signatures right) :
    left = right := by
  have partials : left.partialSigs = right.partialSigs := by
    apply Std.ExtTreeMap.ext_getElem?
    intro key
    have same := congrFun holds (.partialSig key)
    exact Option.map_injective (fun _ _ => Signature.ecdsa.inj) same
  have scripts : left.tapScriptSigs = right.tapScriptSigs := by
    apply Std.ExtTreeMap.ext_getElem?
    intro key
    have same := congrFun holds (.tapScriptSig key)
    exact Option.map_injective (fun _ _ => Signature.taproot.inj) same
  have keySig : left.tapKeySig = right.tapKeySig :=
    Option.map_injective (fun _ _ => Signature.taproot.inj)
      (congrFun holds .tapKeySig)
  obtain ⟨derivations, fields⟩ := Prod.mk.inj sameBase
  cases left
  cases right
  simp_all

theorem Stored.write_injective : Function.Injective Stored.write := by
  intro left right same
  cases left <;> cases right <;> simp_all [Stored.write]

end Input

section Turn

variable {SecretKey Shared Rest : Type}
variable {crates : Crates SecretKey Shared Rest}
variable {signer : HotSigner SecretKey} {derivator : SpkDerivator}
variable {shared : Shared} {prevouts : List TxOut} {index : Nat}
variable {left right : Input Rest}

theorem innerSignInputSegwit_congr
    (same : base left = base right)
    (hash : Nat)
    (paths : List DerivationPath) :
    innerSignInputSegwit crates signer derivator hash left paths =
      innerSignInputSegwit crates signer derivator hash right paths := by
  obtain ⟨derivations, fields⟩ := Prod.mk.inj same
  induction paths with
  | nil =>
      rfl
  | cons path later inductionHypothesis =>
      simp only [innerSignInputSegwit, derivations, fields,
        inductionHypothesis]

theorem signInput_congr (same : base left = base right) :
    signInput crates signer derivator shared prevouts index left =
      signInput crates signer derivator shared prevouts index right := by
  have segwit := @innerSignInputSegwit_congr _ _ _ crates signer derivator _ _ same
  obtain ⟨derivations, fields⟩ := Prod.mk.inj same
  simp only [signInput, signInputSegwit, signInputTapkey, signInputTaptree,
    segwitHash, ownPaths, ownLeaves, segwit, derivations, fields]

/-- An ECDSA signature of the key at a path, for an input that lists the key
and pays to the script of the path. -/
def SegwitMade
    (crates : Crates SecretKey Shared Rest)
    (signer : HotSigner SecretKey)
    (derivator : SpkDerivator)
    (hash : Nat)
    (input : Input Rest)
    (path : DerivationPath)
    (one : Stored) : Prop :=
  ∃ secret der,
    signer.secretKeyAt path = some secret ∧
      crates.publicKey secret ∈ input.bip32Derivation ∧
      checkSpk derivator input.fields.witnessUtxo path = some (.ok ()) ∧
      grind crates hash secret = some der ∧
      crates.verifyEcdsa hash der (crates.publicKey secret) = true ∧
      one =
        .partialSig ⟨true, crates.publicKey secret⟩
          (der ++ [UInt8.ofNat sighashAll])

def Made
    (crates : Crates SecretKey Shared Rest)
    (signer : HotSigner SecretKey)
    (derivator : SpkDerivator)
    (shared : Shared)
    (prevouts : List TxOut)
    (index : Nat)
    (input : Input Rest) : Stored → Prop
  | .partialSig key signature =>
      ∃ hash, segwitHash crates shared index input = .ok hash ∧
        ∃ path ∈ ownPaths signer input,
          SegwitMade crates signer derivator hash input path
            (.partialSig key signature)
  | .tapKeySig signature =>
      ∃ internalKey leaves path secret sighash,
        input.fields.tapInternalKey = some internalKey ∧
          input.fields.tapKeyOrigins[internalKey]? =
            some (leaves, signer.fingerprint, path) ∧
          signer.secretKeyAt path = some secret ∧
          checkSpk derivator input.fields.witnessUtxo path = some (.ok ()) ∧
          crates.xOnly (crates.publicKey secret) = internalKey ∧
          crates.taprootKeySpend shared index prevouts = some sighash ∧
          signature =
            ⟨crates.signSchnorr sighash
                (crates.tapTweak secret input.fields.tapMerkleRoot),
              sighashDefault⟩
  | .tapScriptSig leaf signature =>
      ∃ leaves path secret sighash,
        input.fields.tapKeyOrigins[leaf.xOnlyKey]? =
            some (leaves, signer.fingerprint, path) ∧
          leaf.leafHash ∈ leaves ∧
          signer.secretKeyAt path = some secret ∧
          crates.taprootScriptSpend shared index prevouts leaf.leafHash =
            some sighash ∧
          signature = ⟨crates.signSchnorr sighash secret, sighashDefault⟩

variable {input : Input Rest} {result : Except SignError Unit}
variable {stored : List Stored} {one : Stored}

theorem mem_ownLeaves
    {leaf : TapScriptKey}
    {path : DerivationPath} :
    (leaf, path) ∈ ownLeaves signer input ↔
      ∃ leaves,
        input.fields.tapKeyOrigins[leaf.xOnlyKey]? =
            some (leaves, signer.fingerprint, path) ∧
          leaf.leafHash ∈ leaves := by
  simp only [ownLeaves, List.mem_flatMap, List.mem_filter, List.mem_map,
    decide_eq_true_eq]
  constructor
  · rintro ⟨⟨key, leaves, fingerprint, origin⟩, ⟨listed, own⟩, hash, member,
      same⟩
    cases same
    cases own
    exact ⟨leaves, Std.ExtTreeMap.mem_toList_iff_getElem?_eq_some.mp listed,
      member⟩
  · rintro ⟨leaves, listed, member⟩
    exact ⟨(leaf.xOnlyKey, leaves, signer.fingerprint, path),
      ⟨Std.ExtTreeMap.mem_toList_iff_getElem?_eq_some.mpr listed, rfl⟩,
      leaf.leafHash, member, rfl⟩

theorem innerSignInputSegwit_stores
    {hash : Nat}
    {paths : List DerivationPath}
    (ran :
      innerSignInputSegwit crates signer derivator hash input paths =
        some (result, stored))
    (member : one ∈ stored) :
    ∃ path ∈ paths,
      SegwitMade crates signer derivator hash input path one := by
  induction paths generalizing result stored with
  | nil =>
      cases ran
      cases member
  | cons path later inductionHypothesis =>
      have rest :
          ∀ {result stored},
            innerSignInputSegwit crates signer derivator hash input later =
                some (result, stored) →
              one ∈ stored →
                ∃ inside ∈ path :: later,
                  SegwitMade crates signer derivator hash input inside one := by
        intro result stored ran member
        obtain ⟨inside, there, found⟩ := inductionHypothesis ran member
        exact ⟨inside, List.mem_cons_of_mem _ there, found⟩
      rw [innerSignInputSegwit] at ran
      split at ran
      · cases ran
      · next secret derived =>
          dsimp only at ran
          split at ran
          · exact rest ran member
          · next listed =>
              split at ran
              · cases ran
              · cases ran
                cases member
              · next pays =>
                  split at ran
                  · cases ran
                  · next der ground =>
                      split at ran
                      · next verified =>
                          obtain ⟨⟨outcome, more⟩, run, same⟩ :=
                            Option.map_eq_some_iff.mp ran
                          cases same
                          rcases List.mem_cons.mp member with here | there
                          · exact ⟨path, List.mem_cons_self, secret, der,
                              derived, not_not.mp listed, pays, ground,
                              verified, here⟩
                          · exact rest run there
                      · cases ran
                        cases member

theorem signLeaves_stores
    {leaves : List (TapScriptKey × DerivationPath)}
    (ran :
      signLeaves crates signer shared prevouts index leaves =
        some (result, stored))
    (member : one ∈ stored) :
    ∃ leaf path secret sighash,
      (leaf, path) ∈ leaves ∧ signer.secretKeyAt path = some secret ∧
        crates.taprootScriptSpend shared index prevouts leaf.leafHash =
          some sighash ∧
        one =
          .tapScriptSig leaf
            ⟨crates.signSchnorr sighash secret, sighashDefault⟩ := by
  induction leaves generalizing result stored with
  | nil =>
      cases ran
      cases member
  | cons first later inductionHypothesis =>
      obtain ⟨leaf, path⟩ := first
      rw [signLeaves] at ran
      split at ran
      · cases ran
      · next secret derived =>
          split at ran
          · cases ran
            cases member
          · next sighash hashed =>
              obtain ⟨⟨outcome, more⟩, run, same⟩ :=
                Option.map_eq_some_iff.mp ran
              cases same
              rcases List.mem_cons.mp member with here | there
              · exact ⟨leaf, path, secret, sighash, List.mem_cons_self,
                  derived, hashed, here⟩
              · obtain ⟨leaf, path, secret, sighash, inside, found⟩ :=
                  inductionHypothesis run there
                exact ⟨leaf, path, secret, sighash,
                  List.mem_cons_of_mem _ inside, found⟩

theorem signInputTapkey_stores
    (ran :
      signInputTapkey crates signer derivator shared prevouts index input =
        some (result, stored))
    (member : one ∈ stored) :
    Made crates signer derivator shared prevouts index input one := by
  unfold signInputTapkey at ran
  split at ran
  · cases ran
    cases member
  · split at ran
    · cases ran
      cases member
    · next internalKey internal =>
        split at ran
        · cases ran
          cases member
        · next leaves fingerprint path listed =>
            split at ran
            · cases ran
              cases member
            · next own =>
                obtain rfl := not_not.mp own
                split at ran
                · cases ran
                · cases ran
                  cases member
                · next pays =>
                    split at ran
                    · cases ran
                    · next secret derived =>
                        split at ran
                        · cases ran
                          cases member
                        · next matches_ =>
                            split at ran
                            · cases ran
                              cases member
                            · next sighash hashed =>
                                cases ran
                                obtain rfl := List.mem_singleton.mp member
                                exact ⟨internalKey, leaves, path, secret,
                                  sighash, internal, listed, derived, pays,
                                  not_not.mp matches_, hashed, rfl⟩

theorem signInputTaptree_stores
    (ran :
      signInputTaptree crates signer shared prevouts index input =
        some (result, stored))
    (member : one ∈ stored) :
    Made crates signer derivator shared prevouts index input one := by
  unfold signInputTaptree at ran
  split at ran
  · cases ran
    cases member
  · obtain ⟨leaf, path, secret, sighash, own, derived, hashed, rfl⟩ :=
      signLeaves_stores ran member
    obtain ⟨leaves, listed, inside⟩ := mem_ownLeaves.mp own
    exact ⟨leaves, path, secret, sighash, listed, inside, derived, hashed,
      rfl⟩

theorem signInputSegwit_stores
    (ran :
      signInputSegwit crates signer derivator shared index input =
        some (result, stored))
    (member : one ∈ stored) :
    Made crates signer derivator shared prevouts index input one := by
  unfold signInputSegwit at ran
  split at ran
  · cases ran
    cases member
  · split at ran
    · cases ran
      cases member
    · next hash hashed =>
        obtain ⟨path, own, made⟩ := innerSignInputSegwit_stores ran member
        have shape := made
        obtain ⟨secret, der, -, -, -, -, -, rfl⟩ := shape
        exact ⟨hash, hashed, path, own, made⟩

theorem signInput_stores
    {result : Except SignError Bool}
    (ran :
      signInput crates signer derivator shared prevouts index input =
        some (result, stored))
    (member : one ∈ stored) :
    Made crates signer derivator shared prevouts index input one := by
  unfold signInput at ran
  split at ran
  · obtain ⟨⟨outcome, there⟩, run, same⟩ := Option.map_eq_some_iff.mp ran
    cases same
    exact signInputSegwit_stores run member
  · obtain ⟨⟨outcome, there⟩, run, same⟩ := Option.map_eq_some_iff.mp ran
    cases same
    exact signInputTaptree_stores run member
  · split at ran
    · cases ran
    · next run =>
        cases ran
        exact signInputTapkey_stores run member
    · next first run =>
        obtain ⟨⟨outcome, there⟩, runTree, same⟩ :=
          Option.map_eq_some_iff.mp ran
        cases same
        rcases List.mem_append.mp member with here | there
        · exact signInputTapkey_stores run here
        · exact signInputTaptree_stores runTree there
  · cases ran
    cases member
  · cases ran

/-- Signers told apart by their fingerprint make one signature for a slot. -/
theorem Made.unique
    {other : HotSigner SecretKey}
    {otherDerivator : SpkDerivator}
    {first second : Stored}
    (injective : Function.Injective crates.publicKey)
    (keyed : signer.fingerprint = other.fingerprint → signer = other)
    (made : Made crates signer derivator shared prevouts index input first)
    (again :
      Made crates other otherDerivator shared prevouts index input second)
    (same : first.write.1 = second.write.1) :
    first = second := by
  cases first with
  | partialSig key signature =>
      cases second with
      | partialSig otherKey otherSignature =>
          obtain ⟨hash, hashed, path, own, secret, der, derived, listed, pays,
            ground, verified, shape⟩ := made
          obtain ⟨hash', hashed', path', own', secret', der', derived',
            listed', pays', ground', verified', shape'⟩ := again
          cases hashed.symm.trans hashed'
          cases shape
          cases shape'
          have sameKey :
              (⟨true, crates.publicKey secret⟩ : Hwi.PublicKey) =
                ⟨true, crates.publicKey secret'⟩ :=
            Slot.partialSig.inj same
          have sameSecret : secret = secret' :=
            injective (Hwi.PublicKey.mk.inj sameKey).2
          subst sameSecret
          cases ground.symm.trans ground'
          rfl
      | tapKeySig otherSignature =>
          cases same
      | tapScriptSig otherKey otherSignature =>
          cases same
  | tapKeySig signature =>
      cases second with
      | partialSig otherKey otherSignature =>
          cases same
      | tapKeySig otherSignature =>
          obtain ⟨internalKey, leaves, path, secret, sighash, internal,
            listed, derived, pays, matches_, hashed, rfl⟩ := made
          obtain ⟨internalKey', leaves', path', secret', sighash', internal',
            listed', derived', pays', matches_', hashed', rfl⟩ := again
          cases internal.symm.trans internal'
          have sameOrigin := listed.symm.trans listed'
          simp only [Option.some.injEq, Prod.mk.injEq] at sameOrigin
          obtain ⟨-, sameFingerprint, rfl⟩ := sameOrigin
          obtain rfl := keyed sameFingerprint
          cases derived.symm.trans derived'
          cases hashed.symm.trans hashed'
          rfl
      | tapScriptSig otherKey otherSignature =>
          cases same
  | tapScriptSig leaf signature =>
      cases second with
      | partialSig otherKey otherSignature =>
          cases same
      | tapKeySig otherSignature =>
          cases same
      | tapScriptSig otherLeaf otherSignature =>
          obtain ⟨leaves, path, secret, sighash, listed, inside, derived,
            hashed, rfl⟩ := made
          obtain ⟨leaves', path', secret', sighash', listed', inside',
            derived', hashed', rfl⟩ := again
          obtain rfl : leaf = otherLeaf := Slot.tapScriptSig.inj same
          have sameOrigin := listed.symm.trans listed'
          simp only [Option.some.injEq, Prod.mk.injEq] at sameOrigin
          obtain ⟨-, sameFingerprint, rfl⟩ := sameOrigin
          obtain rfl := keyed sameFingerprint
          cases derived.symm.trans derived'
          cases hashed.symm.trans hashed'
          rfl

end Turn

end Bwk.Sign
