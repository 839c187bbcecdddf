import Bwk.SignerTurns

namespace Bwk.Sign

open Hwi (TapScriptKey DerivationPath)

/-!
# Inputs the hot signer panics at

A turn panics at metadata the source takes for unreachable, at a path that has
no key or whose script cannot be derived, and it does not end when no nonce
gives a signature of full size.
-/

variable {SecretKey Shared Rest : Type}

section Panics

variable (crates : Crates SecretKey Shared Rest)
variable (signer : HotSigner SecretKey) (derivator : SpkDerivator)

/-- The kinds of metadata that the source takes for unreachable. -/
def Mixed (input : Input Rest) : Prop :=
  if input.bip32Derivation.isEmpty then
    input.fields.tapInternalKey.isSome ∧ input.fields.tapKeyOrigins.isEmpty
  else
    input.fields.tapInternalKey.isSome ∨ ¬ input.fields.tapKeyOrigins.isEmpty

/-- An own path after which segwit signing goes on. -/
def PathPasses
    (hash : Nat)
    (input : Input Rest)
    (path : DerivationPath) : Prop :=
  ∃ secret, signer.secretKeyAt path = some secret ∧
    (crates.publicKey secret ∈ input.bip32Derivation →
      checkSpk derivator input.fields.witnessUtxo path = some (.ok ()) ∧
        ∃ der, grind crates hash secret = some der ∧
          crates.verifyEcdsa hash der (crates.publicKey secret) = true)

/-- An own path segwit signing panics at, or never comes back from: its key
cannot be derived, its script cannot, or no nonce gives a full signature. -/
def PathPanics
    (hash : Nat)
    (input : Input Rest)
    (path : DerivationPath) : Prop :=
  ∀ secret, signer.secretKeyAt path = some secret →
    crates.publicKey secret ∈ input.bip32Derivation ∧
      (checkSpk derivator input.fields.witnessUtxo path = none ∨
        checkSpk derivator input.fields.witnessUtxo path = some (.ok ()) ∧
          grind crates hash secret = none)

theorem innerSignInputSegwit_eq_none_iff
    {hash : Nat}
    {input : Input Rest}
    {paths : List DerivationPath} :
    innerSignInputSegwit crates signer derivator hash input paths = none ↔
      ∃ earlier path later, paths = earlier ++ path :: later ∧
        (∀ before ∈ earlier,
          PathPasses crates signer derivator hash input before) ∧
        PathPanics crates signer derivator hash input path := by
  induction paths with
  | nil =>
      simp [innerSignInputSegwit]
  | cons path later inductionHypothesis =>
      have here_or_later :
          (∃ earlier inside rest,
              path :: later = earlier ++ inside :: rest ∧
                (∀ before ∈ earlier,
                  PathPasses crates signer derivator hash input before) ∧
                PathPanics crates signer derivator hash input inside) ↔
            PathPanics crates signer derivator hash input path ∨
              PathPasses crates signer derivator hash input path ∧
                ∃ earlier inside rest,
                  later = earlier ++ inside :: rest ∧
                    (∀ before ∈ earlier,
                      PathPasses crates signer derivator hash input before) ∧
                    PathPanics crates signer derivator hash input inside := by
        constructor
        · rintro ⟨earlier, inside, rest, shape, passed, panics⟩
          cases earlier with
          | nil =>
              cases shape
              exact .inl panics
          | cons first earlier =>
              cases shape
              exact .inr ⟨passed _ List.mem_cons_self, earlier, inside, rest,
                rfl, fun before member =>
                  passed before (List.mem_cons_of_mem _ member), panics⟩
        · rintro (panics | ⟨passes, earlier, inside, rest, rfl, passed,
            panics⟩)
          · exact ⟨[], path, later, rfl, by simp, panics⟩
          · refine ⟨path :: earlier, inside, rest, rfl, ?_, panics⟩
            intro before member
            rcases List.mem_cons.mp member with rfl | member
            · exact passes
            · exact passed before member
      rw [here_or_later, ← inductionHypothesis, innerSignInputSegwit]
      unfold PathPanics PathPasses
      cases derived : signer.secretKeyAt path with
      | none =>
          simp
      | some secret =>
          by_cases listed : crates.publicKey secret ∈ input.bip32Derivation
          · cases pays : checkSpk derivator input.fields.witnessUtxo path with
            | none =>
                simp [listed]
            | some outcome =>
                cases outcome with
                | error reason =>
                    simp [listed]
                | ok paid =>
                    cases ground : grind crates hash secret with
                    | none =>
                        simp [listed, ground]
                    | some der =>
                        by_cases verified :
                            crates.verifyEcdsa hash der
                              (crates.publicKey secret) = true
                        · simp [listed, ground, verified]
                        · simp [listed, ground, verified]
          · simp [listed]

theorem signLeaves_eq_none_iff
    {shared : Shared}
    {prevouts : List TxOut}
    {index : Nat}
    {leaves : List (TapScriptKey × DerivationPath)} :
    signLeaves crates signer shared prevouts index leaves = none ↔
      ∃ earlier leaf later, leaves = earlier ++ leaf :: later ∧
        (∀ before ∈ earlier,
          (signer.secretKeyAt before.2).isSome ∧
            (crates.taprootScriptSpend shared index prevouts
              before.1.leafHash).isSome) ∧
        signer.secretKeyAt leaf.2 = none := by
  induction leaves with
  | nil =>
      simp [signLeaves]
  | cons first later inductionHypothesis =>
      obtain ⟨leaf, path⟩ := first
      rw [signLeaves]
      cases derived : signer.secretKeyAt path with
      | none =>
          simp only [true_iff]
          exact ⟨[], (leaf, path), later, rfl, by simp, derived⟩
      | some secret =>
          cases hashed :
              crates.taprootScriptSpend shared index prevouts
                leaf.leafHash with
          | none =>
              simp only [reduceCtorEq, false_iff]
              rintro ⟨earlier, inside, rest, shape, passed, missing⟩
              cases earlier with
              | nil =>
                  cases shape
                  cases missing.symm.trans derived
              | cons before earlier =>
                  cases shape
                  have seen := (passed _ List.mem_cons_self).2
                  rw [hashed] at seen
                  cases seen
          | some sighash =>
              rw [Option.map_eq_none_iff, inductionHypothesis]
              constructor
              · rintro ⟨earlier, inside, rest, rfl, passed, missing⟩
                refine ⟨(leaf, path) :: earlier, inside, rest, rfl, ?_,
                  missing⟩
                intro before member
                rcases List.mem_cons.mp member with rfl | member
                · exact ⟨by rw [derived]; rfl, by rw [hashed]; rfl⟩
                · exact passed before member
              · rintro ⟨earlier, inside, rest, shape, passed, missing⟩
                cases earlier with
                | nil =>
                    cases shape
                    cases missing.symm.trans derived
                | cons before earlier =>
                    cases shape
                    exact ⟨earlier, inside, rest, rfl, fun before member =>
                      passed before (List.mem_cons_of_mem _ member), missing⟩

inductive Panics
    (shared : Shared)
    (prevouts : List TxOut)
    (index : Nat)
    (input : Input Rest) : Prop where
  | mixed (kinds : Mixed input)
  /-- The paths before it pass, and the path does not come back. -/
  | segwit
      {hash : Nat}
      {earlier later : List DerivationPath}
      {path : DerivationPath}
      (kinds : ¬ Mixed input)
      (known : input.fields.witnessUtxo.isSome)
      (hashed : segwitHash crates shared index input = .ok hash)
      (own : ownPaths signer input = earlier ++ path :: later)
      (passed :
        ∀ before ∈ earlier,
          PathPasses crates signer derivator hash input before)
      (panics : PathPanics crates signer derivator hash input path)
  /-- The path of the internal key has no script or no key. -/
  | tapkey
      {internalKey : Nat}
      {leaves : List Nat}
      {path : DerivationPath}
      (kinds : ¬ Mixed input)
      (known : input.fields.witnessUtxo.isSome)
      (internal : input.fields.tapInternalKey = some internalKey)
      (listed :
        input.fields.tapKeyOrigins[internalKey]? =
          some (leaves, signer.fingerprint, path))
      (panics :
        checkSpk derivator input.fields.witnessUtxo path = none ∨
          checkSpk derivator input.fields.witnessUtxo path = some (.ok ()) ∧
            signer.secretKeyAt path = none)
  /-- The path of a leaf has no key. -/
  | taptree
      {earlier later : List (TapScriptKey × DerivationPath)}
      {leaf : TapScriptKey × DerivationPath}
      (kinds : ¬ Mixed input)
      (known : input.fields.witnessUtxo.isSome)
      (signed :
        input.fields.tapInternalKey.isSome →
          ∃ stored,
            signInputTapkey crates signer derivator shared prevouts index
              input = some (.ok (), stored))
      (own : ownLeaves signer input = earlier ++ leaf :: later)
      (passed :
        ∀ before ∈ earlier,
          (signer.secretKeyAt before.2).isSome ∧
            (crates.taprootScriptSpend shared index prevouts
              before.1.leafHash).isSome)
      (panics : signer.secretKeyAt leaf.2 = none)

theorem signInputTapkey_eq_none_iff
    {shared : Shared}
    {prevouts : List TxOut}
    {index : Nat}
    {input : Input Rest} :
    signInputTapkey crates signer derivator shared prevouts index input =
        none ↔
      input.fields.witnessUtxo.isSome ∧ ∃ internalKey leaves path,
        input.fields.tapInternalKey = some internalKey ∧
          input.fields.tapKeyOrigins[internalKey]? =
            some (leaves, signer.fingerprint, path) ∧
          (checkSpk derivator input.fields.witnessUtxo path = none ∨
            checkSpk derivator input.fields.witnessUtxo path =
                some (.ok ()) ∧
              signer.secretKeyAt path = none) := by
  unfold signInputTapkey
  split
  · next missing =>
      refine iff_of_false (by simp) ?_
      rintro ⟨known, -⟩
      rw [Option.isNone_iff_eq_none.mp missing] at known
      cases known
  · next known =>
      have isKnown : input.fields.witnessUtxo.isSome = true :=
        Option.isSome_iff_ne_none.mpr (mt Option.isNone_iff_eq_none.mpr known)
      split
      · next missing =>
          refine iff_of_false (by simp) ?_
          rintro ⟨-, _, _, _, internal, -⟩
          cases missing.symm.trans internal
      · next internalKey internal =>
          split
          · next unlisted =>
              refine iff_of_false (by simp) ?_
              rintro ⟨-, _, _, _, other, listed, -⟩
              cases internal.symm.trans other
              cases unlisted.symm.trans listed
          · next leaves fingerprint path listed =>
              have only :
                  (input.fields.witnessUtxo.isSome ∧
                    ∃ internalKey leaves path,
                      input.fields.tapInternalKey = some internalKey ∧
                        input.fields.tapKeyOrigins[internalKey]? =
                          some (leaves, signer.fingerprint, path) ∧
                        (checkSpk derivator input.fields.witnessUtxo path =
                            none ∨
                          checkSpk derivator input.fields.witnessUtxo path =
                              some (.ok ()) ∧
                            signer.secretKeyAt path = none)) ↔
                    fingerprint = signer.fingerprint ∧
                      (checkSpk derivator input.fields.witnessUtxo path =
                          none ∨
                        checkSpk derivator input.fields.witnessUtxo path =
                            some (.ok ()) ∧
                          signer.secretKeyAt path = none) := by
                constructor
                · rintro ⟨-, _, _, _, other, origin, panics⟩
                  cases internal.symm.trans other
                  cases listed.symm.trans origin
                  exact ⟨rfl, panics⟩
                · rintro ⟨rfl, panics⟩
                  exact ⟨isKnown, internalKey, leaves, path, internal, listed,
                    panics⟩
              rw [only]
              split
              · next foreign =>
                  exact iff_of_false (by simp) (fun own => foreign own.1)
              · next own =>
                  rw [not_not] at own
                  split
                  · next missing =>
                      exact iff_of_true rfl ⟨own, .inl missing⟩
                  · next refused =>
                      simp [refused]
                  · next pays =>
                      split
                      · next missing =>
                          exact iff_of_true rfl ⟨own, .inr ⟨pays, missing⟩⟩
                      · next secret derived =>
                          refine iff_of_false ?_ (by simp [pays, derived])
                          split
                          · simp
                          · split
                            · simp
                            · simp

theorem not_isEmpty_of_ownPaths
    {input : Input Rest}
    {path : DerivationPath}
    (own : path ∈ ownPaths signer input) :
    input.bip32Derivation.isEmpty = false := by
  obtain ⟨entry, listed, -⟩ := List.mem_filterMap.mp own
  have stored := Std.ExtTreeMap.mem_toList_iff_getElem?_eq_some.mp listed
  rw [Std.ExtTreeMap.isEmpty_eq_false_iff]
  intro empty
  rw [empty] at stored
  simp at stored

theorem not_isEmpty_of_ownLeaves
    {input : Input Rest}
    {leaf : TapScriptKey × DerivationPath}
    (own : leaf ∈ ownLeaves signer input) :
    input.fields.tapKeyOrigins.isEmpty = false := by
  obtain ⟨leaves, listed, -⟩ := mem_ownLeaves.mp own
  rw [Std.ExtTreeMap.isEmpty_eq_false_iff]
  intro empty
  rw [empty] at listed
  simp at listed

section Kinds

variable
    {shared : Shared}
    {prevouts : List TxOut}
    {index : Nat}
    {input : Input Rest}

theorem signInput_segwit
    (derivations : input.bip32Derivation.isEmpty = false)
    (internal : input.fields.tapInternalKey.isSome = false)
    (origins : input.fields.tapKeyOrigins.isEmpty = true) :
    signInput crates signer derivator shared prevouts index input =
      (signInputSegwit crates signer derivator shared index input).map
        (fun (result, stored) => (settled result, stored)) := by
  simp only [signInput, derivations, internal, origins]
  rfl

theorem signInput_taptree
    (derivations : input.bip32Derivation.isEmpty = true)
    (internal : input.fields.tapInternalKey.isSome = false)
    (origins : input.fields.tapKeyOrigins.isEmpty = false) :
    signInput crates signer derivator shared prevouts index input =
      (signInputTaptree crates signer shared prevouts index input).map
        (fun (result, stored) => (settled result, stored)) := by
  simp only [signInput, derivations, internal, origins]
  rfl

theorem signInput_tapkey
    (derivations : input.bip32Derivation.isEmpty = true)
    (internal : input.fields.tapInternalKey.isSome = true)
    (origins : input.fields.tapKeyOrigins.isEmpty = false) :
    signInput crates signer derivator shared prevouts index input =
      match
          signInputTapkey crates signer derivator shared prevouts index
            input with
      | none => none
      | some (.error reason, stored) => some (settled (.error reason), stored)
      | some (.ok (), stored) =>
          (signInputTaptree crates signer shared prevouts index input).map
            (fun (result, more) => (settled result, stored ++ more)) := by
  simp only [signInput, derivations, internal, origins]
  rfl

theorem signInput_empty
    (derivations : input.bip32Derivation.isEmpty = true)
    (internal : input.fields.tapInternalKey.isSome = false)
    (origins : input.fields.tapKeyOrigins.isEmpty = true) :
    signInput crates signer derivator shared prevouts index input =
      some (.ok false, []) := by
  simp only [signInput, derivations, internal, origins]
  rfl

theorem signInput_mixed (kinds : Mixed input) :
    signInput crates signer derivator shared prevouts index input = none := by
  unfold Mixed at kinds
  cases derivations : input.bip32Derivation.isEmpty with
  | true =>
      rw [if_pos derivations] at kinds
      simp only [signInput, derivations, kinds.1, kinds.2]
      rfl
  | false =>
      rw [if_neg (by rw [derivations]; exact Bool.false_ne_true)] at kinds
      cases internal : input.fields.tapInternalKey.isSome with
      | true =>
          cases origins : input.fields.tapKeyOrigins.isEmpty <;>
            simp [signInput, derivations, internal, origins]
      | false =>
          have origins : input.fields.tapKeyOrigins.isEmpty = false := by
            simpa [internal] using kinds
          simp [signInput, derivations, internal, origins]

theorem signInputSegwit_eq_none_iff :
    signInputSegwit crates signer derivator shared index input = none ↔
      input.fields.witnessUtxo.isSome ∧ ∃ hash,
        segwitHash crates shared index input = .ok hash ∧
          innerSignInputSegwit crates signer derivator hash input
            (ownPaths signer input) = none := by
  unfold signInputSegwit
  cases input.fields.witnessUtxo with
  | none =>
      simp
  | some wit =>
      cases segwitHash crates shared index input with
      | error reason =>
          simp
      | ok hash =>
          simp

theorem signInputTaptree_eq_none_iff :
    signInputTaptree crates signer shared prevouts index input = none ↔
      input.fields.witnessUtxo.isSome ∧
        signLeaves crates signer shared prevouts index
          (ownLeaves signer input) = none := by
  unfold signInputTaptree
  cases input.fields.witnessUtxo with
  | none =>
      simp
  | some wit =>
      simp

theorem Panics.of_none
    (panicked :
      signInput crates signer derivator shared prevouts index input = none) :
    Panics crates signer derivator shared prevouts index input := by
  by_cases kinds : Mixed input
  · exact .mixed kinds
  · have kinds' := kinds
    unfold Mixed at kinds'
    cases derivations : input.bip32Derivation.isEmpty with
    | false =>
        rw [if_neg (by rw [derivations]; exact Bool.false_ne_true),
          not_or, Bool.not_eq_true, not_not] at kinds'
        rw [signInput_segwit crates signer derivator derivations kinds'.1
          kinds'.2, Option.map_eq_none_iff,
          signInputSegwit_eq_none_iff] at panicked
        obtain ⟨known, hash, hashed, panicked⟩ := panicked
        obtain ⟨earlier, path, later, own, passed, panics⟩ :=
          (innerSignInputSegwit_eq_none_iff crates signer derivator).mp
            panicked
        exact .segwit kinds known hashed own passed panics
    | true =>
        rw [if_pos derivations, not_and] at kinds'
        have tree :
            (input.fields.tapInternalKey.isSome →
              ∃ stored,
                signInputTapkey crates signer derivator shared prevouts index
                  input = some (.ok (), stored)) →
            signInputTaptree crates signer shared prevouts index input =
                none →
              Panics crates signer derivator shared prevouts index input := by
          intro signed missing
          obtain ⟨known, missing⟩ :=
            (signInputTaptree_eq_none_iff crates signer).mp missing
          obtain ⟨earlier, leaf, later, own, passed, panics⟩ :=
            (signLeaves_eq_none_iff crates signer).mp missing
          exact .taptree kinds known signed own passed panics
        cases internal : input.fields.tapInternalKey.isSome with
        | false =>
            cases origins : input.fields.tapKeyOrigins.isEmpty with
            | true =>
                rw [signInput_empty crates signer derivator derivations
                  internal origins] at panicked
                cases panicked
            | false =>
                rw [signInput_taptree crates signer derivator derivations
                  internal origins, Option.map_eq_none_iff] at panicked
                refine tree (fun some_ => ?_) panicked
                rw [internal] at some_
                cases some_
        | true =>
            have origins : input.fields.tapKeyOrigins.isEmpty = false := by
              simpa using kinds' internal
            rw [signInput_tapkey crates signer derivator derivations internal
              origins] at panicked
            split at panicked
            · next missing =>
                obtain ⟨known, internalKey, leaves, path, key, listed,
                  panics⟩ :=
                  (signInputTapkey_eq_none_iff crates signer derivator).mp
                    missing
                exact .tapkey kinds known key listed panics
            · cases panicked
            · next stored signed =>
                rw [Option.map_eq_none_iff] at panicked
                exact tree (fun _ => ⟨stored, signed⟩) panicked

theorem signInput_eq_none_iff :
    signInput crates signer derivator shared prevouts index input = none ↔
      Panics crates signer derivator shared prevouts index input := by
  refine ⟨Panics.of_none crates signer derivator, ?_⟩
  intro panics
  cases panics with
  | mixed kinds =>
      exact signInput_mixed crates signer derivator kinds
  | @segwit hash earlier later path kinds known hashed own passed panics =>
      have derivations :=
        not_isEmpty_of_ownPaths signer
          (own ▸ List.mem_append_right earlier List.mem_cons_self)
      unfold Mixed at kinds
      rw [if_neg (by rw [derivations]; exact Bool.false_ne_true), not_or,
        Bool.not_eq_true, not_not] at kinds
      rw [signInput_segwit crates signer derivator derivations kinds.1
        kinds.2, Option.map_eq_none_iff, signInputSegwit_eq_none_iff]
      refine ⟨known, hash, hashed, ?_⟩
      rw [innerSignInputSegwit_eq_none_iff]
      exact ⟨earlier, path, later, own, passed, panics⟩
  | @tapkey internalKey leaves path kinds known internal listed panics =>
      have origins : input.fields.tapKeyOrigins.isEmpty = false := by
        rw [Std.ExtTreeMap.isEmpty_eq_false_iff]
        intro empty
        rw [empty] at listed
        simp at listed
      have isKey : input.fields.tapInternalKey.isSome = true := by
        rw [internal]
        rfl
      have derivations : input.bip32Derivation.isEmpty = true := by
        by_contra some_
        apply kinds
        unfold Mixed
        rw [if_neg some_]
        exact .inl isKey
      rw [signInput_tapkey crates signer derivator derivations isKey origins,
        (signInputTapkey_eq_none_iff crates signer derivator).mpr
          ⟨known, internalKey, leaves, path, internal, listed, panics⟩]
  | @taptree earlier later leaf kinds known signed own passed panics =>
      have origins :=
        not_isEmpty_of_ownLeaves signer
          (own ▸ List.mem_append_right earlier List.mem_cons_self)
      have derivations : input.bip32Derivation.isEmpty = true := by
        by_contra some_
        apply kinds
        unfold Mixed
        rw [if_neg some_]
        exact .inr (by rw [origins]; exact Bool.false_ne_true)
      have missing :
          signInputTaptree crates signer shared prevouts index input =
            none := by
        rw [signInputTaptree_eq_none_iff, signLeaves_eq_none_iff]
        exact ⟨known, earlier, leaf, later, own, passed, panics⟩
      cases internal : input.fields.tapInternalKey.isSome with
      | false =>
          rw [signInput_taptree crates signer derivator derivations internal
            origins, missing]
          rfl
      | true =>
          obtain ⟨stored, first⟩ := signed internal
          rw [signInput_tapkey crates signer derivator derivations internal
            origins, first, missing]
          rfl

end Kinds

end Panics

end Bwk.Sign
