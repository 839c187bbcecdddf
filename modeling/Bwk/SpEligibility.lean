import Bwk.SpInputs
import Mathlib

namespace Bwk

/-!
# Which key an input counts with

What a spend of each kind of script looks like in a valid transaction, and the
key that such an input contributes to a silent payment.  The last witness item
of a taproot spend is an annex only next to another item, which the reading of
the key does not ask.
-/

section Assigned

variable {G X : Type} [AddCommGroup G]
variable (keys : XOnlyKeys G X) (crate : KeyCrate G X)

structure KeyOfHash
    (candidate : Bytes → Prop)
    (hash : Bytes)
    (key : Option G) : Prop where
  compressed :
    ∀ point, key = some point →
      ∃ bytes, candidate bytes ∧ bytes.length = 33 ∧
        crate.hash160 bytes = hash ∧ crate.publicKey bytes = some point
  unmatched :
    key = none →
      ∀ bytes, candidate bytes → bytes.length = 33 →
        crate.hash160 bytes = hash → crate.publicKey bytes = none

/-- The last of two or more items is an annex when it starts with `0x50`. -/
def hasAnnex (witness : List Bytes) : Bool :=
  2 ≤ witness.length ∧ witness.getLast?.bind List.head? = some 0x50

/-- A witness without its annex. -/
def taprootStack (witness : List Bytes) : List Bytes :=
  if hasAnnex witness then witness.dropLast else witness

/-- The internal key a script path reveals. -/
def revealedKey (witness : List Bytes) : Option Bytes :=
  if 2 ≤ (taprootStack witness).length then
    (taprootStack witness).getLast?.map (slice · 1 33)
  else
    none

/-- The key an input is assigned, by the kind of script it spends. -/
structure AssignedKey
    (input : FinalizedInput)
    (spk : Bytes)
    (key : Option G) : Prop where
  keyHash :
    ∀ hash, hash.length = 20 → spk = p2pkh hash →
      KeyOfHash crate (· <:+: input.scriptSig) hash key
  nested :
    ∀ scriptHash hash, scriptHash.length = 20 → hash.length = 20 →
      spk = p2sh scriptHash → input.scriptSig = 22 :: p2wpkh hash →
      crate.hash160 (p2wpkh hash) = scriptHash →
        KeyOfHash crate (input.witness.getLast? = some ·) hash key
  otherP2sh :
    ∀ scriptHash, scriptHash.length = 20 → spk = p2sh scriptHash →
      (∀ hash, hash.length = 20 → input.scriptSig = 22 :: p2wpkh hash →
        crate.hash160 (p2wpkh hash) ≠ scriptHash) →
        key = none
  witnessKeyHash :
    ∀ hash, hash.length = 20 → spk = p2wpkh hash →
      KeyOfHash crate (input.witness.getLast? = some ·) hash key
  taproot :
    ∀ bytes xonly, bytes.length = 32 → spk = p2tr bytes →
      crate.xOnlyKey bytes = some xonly →
        key =
          if revealedKey input.witness = some numsH then
            none
          else
            some (keys.even xonly)
  other :
    ¬ isP2pkh spk → ¬ isP2sh spk → ¬ isP2wpkh spk → ¬ isP2tr spk →
      key = none

/-- Nothing, or one item that starts with `0x50`. -/
inductive Annex : List Bytes → Prop
  | absent : Annex []
  | present (rest : Bytes) : Annex [0x50 :: rest]

/-- An unlocking half that a valid transaction can have for a script. -/
inductive ValidSpend : FinalizedInput → Bytes → Prop
  | keyHash
      {hash scriptSig : Bytes}
      (length : hash.length = 20)
      (unlocked : scriptSig ≠ []) :
      ValidSpend ⟨scriptSig, []⟩ (p2pkh hash)
  | nested
      {hash signature pubkey : Bytes}
      (length : hash.length = 20)
      (scriptLength : (crate.hash160 (p2wpkh hash)).length = 20)
      (hashed : crate.hash160 pubkey = hash)
      (parsed : (crate.publicKey pubkey).isSome) :
      ValidSpend ⟨22 :: p2wpkh hash, [signature, pubkey]⟩
        (p2sh (crate.hash160 (p2wpkh hash)))
  /-- A script signature of one push pushes the script with that hash. -/
  | otherP2sh
      {scriptHash scriptSig : Bytes}
      {witness : List Bytes}
      (length : scriptHash.length = 20)
      (redeemed :
        ∀ redeemScript, scriptSig = 22 :: redeemScript →
          redeemScript.length = 22 →
            crate.hash160 redeemScript = scriptHash ∧
              ¬ isP2wpkh redeemScript) :
      ValidSpend ⟨scriptSig, witness⟩ (p2sh scriptHash)
  | witnessKeyHash
      {hash signature pubkey : Bytes}
      (length : hash.length = 20)
      (hashed : crate.hash160 pubkey = hash)
      (parsed : (crate.publicKey pubkey).isSome) :
      ValidSpend ⟨[], [signature, pubkey]⟩ (p2wpkh hash)
  | keyPath
      {bytes signature : Bytes}
      {annex : List Bytes}
      {xonly : X}
      (length : bytes.length = 32)
      (parsed : crate.xOnlyKey bytes = some xonly)
      (signed : signature.length = 64 ∨ signature.length = 65)
      (annexed : Annex annex) :
      ValidSpend ⟨[], signature :: annex⟩ (p2tr bytes)
  /-- Without an annex the control block does not start like one. -/
  | scriptPath
      {bytes control : Bytes}
      {stack annex : List Bytes}
      {xonly : X}
      (length : bytes.length = 32)
      (parsed : crate.xOnlyKey bytes = some xonly)
      (leaf : stack ≠ [])
      (branch : ∃ depth, control.length = 33 + 32 * depth)
      (annexed : Annex annex)
      (plain : annex = [] → control.head? ≠ some 0x50) :
      ValidSpend ⟨[], stack ++ control :: annex⟩ (p2tr bytes)
  | other
      {input : FinalizedInput}
      {spk : Bytes}
      (apart :
        ¬ isP2pkh spk ∧ ¬ isP2sh spk ∧ ¬ isP2wpkh spk ∧ ¬ isP2tr spk) :
      ValidSpend input spk

/-- A lone taproot signature that starts like an annex. -/
def LoneAnnex (input : FinalizedInput) (spk : Bytes) : Prop :=
  isP2tr spk ∧ ∃ rest, input.witness = [0x50 :: rest]

/-- A witness public key hash is unlocked by a key that is not compressed. -/
def UncompressedWitness (input : FinalizedInput) (spk : Bytes) : Prop :=
  (isP2wpkh spk ∨
      isP2sh spk ∧
        ∃ hash : Bytes, hash.length = 20 ∧
          input.scriptSig = 22 :: p2wpkh hash) ∧
    ∃ pubkey, input.witness.getLast? = some pubkey ∧ pubkey.length ≠ 33

theorem mem_windows
    {size : Nat}
    {bytes run : Bytes} :
    run ∈ windows size bytes ↔ run.length = size ∧ run <:+: bytes := by
  simp only [windows, List.mem_map, List.mem_range, slice]
  constructor
  · rintro ⟨first, inside, rfl⟩
    constructor
    · rw [List.length_take, List.length_drop]
      omega
    · exact ((List.take_prefix _ _).isInfix).trans
        (List.drop_suffix first bytes).isInfix
  · rintro ⟨rfl, before, after, rfl⟩
    refine ⟨before.length, by simp only [List.length_append]; omega, ?_⟩
    simp

omit [AddCommGroup G] in
theorem keyOfHash_findSome?
    {candidate : Bytes → Prop}
    {found : List Bytes}
    {hash : Bytes}
    (listed : ∀ bytes, bytes.length = 33 → (bytes ∈ found ↔ candidate bytes)) :
    KeyOfHash crate candidate hash
      (found.findSome? (compressedPubkey crate · hash)) := by
  constructor
  · intro point finds
    obtain ⟨bytes, member, read⟩ := List.exists_of_findSome?_eq_some finds
    rw [compressedPubkey] at read
    split at read
    · cases read
    · next shape =>
        rw [not_or, not_not, not_not] at shape
        exact ⟨bytes, (listed bytes shape.1).mp member, shape.1, shape.2, read⟩
  · intro missing bytes isCandidate length hashed
    have unread :=
      List.findSome?_eq_none_iff.mp missing bytes
        ((listed bytes length).mpr isCandidate)
    rwa [compressedPubkey, if_neg (by simp [length, hashed])] at unread

omit [AddCommGroup G] in
variable {crate} in
theorem witnessPubkey_spec
    {pubkey hash : Bytes}
    (signature : Bytes)
    (reason : String)
    (hashed : crate.hash160 pubkey = hash)
    (parsed : (crate.publicKey pubkey).isSome) :
    if pubkey.length = 33 then
      ∃ key,
        witnessPubkey crate [signature, pubkey] hash reason = .ok key ∧
          KeyOfHash crate ([signature, pubkey].getLast? = some ·) hash key
    else
      witnessPubkey crate [signature, pubkey] hash reason =
        .error (.invalidInput reason) := by
  obtain ⟨point, read⟩ := Option.isSome_iff_exists.mp parsed
  unfold witnessPubkey compressedPubkey
  by_cases compressed : pubkey.length = 33
  · rw [if_pos compressed]
    refine ⟨some point, by simp [compressed, hashed, read], ?_, ?_⟩
    · rintro _ ⟨⟩
      exact ⟨pubkey, rfl, compressed, hashed, read⟩
    · intro impossible
      cases impossible
  · simp [compressed]

theorem taprootStack_spec
    {witness : List Bytes}
    (signed : witness ≠ [])
    (accompanied : ∀ rest, witness ≠ [0x50 :: rest]) :
    let hasAnnex :=
      (witness.getLast?.bind List.head?).any (fun byte => byte = 0x50)
    witness.length - hasAnnex.toNat = (taprootStack witness).length ∧
      taprootStack witness ≠ [] ∧
      (taprootStack witness).getLast? =
        witness[(taprootStack witness).length - 1]? := by
  intro annexed
  unfold taprootStack hasAnnex
  cases tagged : witness.getLast?.bind List.head? with
  | none =>
      simp only [annexed, tagged, Option.any_none, Bool.toNat_false,
        Nat.sub_zero, reduceCtorEq, and_false, decide_false,
        Bool.false_eq_true, ↓reduceIte]
      exact ⟨trivial, signed, List.getLast?_eq_getElem?⟩
  | some byte =>
      by_cases tag : byte = 0x50
      · have pair : 2 ≤ witness.length := by
          rcases witness with _ | ⟨first, _ | ⟨second, rest⟩⟩
          · exact absurd rfl signed
          · obtain ⟨_, rfl⟩ : ∃ rest, first = byte :: rest := by
              rcases first with _ | ⟨head, rest⟩
              · simp at tagged
              · exact ⟨rest, by simpa using tagged⟩
            exact absurd (by rw [tag]) (accompanied _)
          · simp
        simp only [annexed, tagged, tag, pair, Option.any_some,
          decide_true, Bool.toNat_true, and_self, ↓reduceIte,
          List.length_dropLast]
        refine ⟨trivial, ?_, ?_⟩
        · rw [← List.length_pos_iff_ne_nil, List.length_dropLast]
          omega
        · rw [List.getLast?_eq_getElem?, List.length_dropLast,
            List.getElem?_dropLast, if_pos (by omega)]
      · simp only [annexed, tagged, tag, Option.any_some, decide_false,
          Bool.toNat_false, Nat.sub_zero, Option.some.injEq, and_false,
          Bool.false_eq_true, ↓reduceIte]
        exact ⟨trivial, signed, List.getLast?_eq_getElem?⟩

variable {crate} in
theorem taprootPubkey_spec
    {witness : List Bytes}
    {bytes : Bytes}
    {xonly : X}
    (length : bytes.length = 32)
    (parsed : crate.xOnlyKey bytes = some xonly)
    (signed : witness ≠ [])
    (accompanied : ∀ rest, witness ≠ [0x50 :: rest])
    (branch :
      ∀ control, 2 ≤ (taprootStack witness).length →
        (taprootStack witness).getLast? = some control →
          33 ≤ control.length) :
    taprootPubkey keys crate witness (p2tr bytes) =
      .ok
        (if revealedKey witness = some numsH then
          none
        else
          some (keys.even xonly)) := by
  obtain ⟨stackLen, some_item, last⟩ := taprootStack_spec signed accompanied
  have positive : (taprootStack witness).length ≠ 0 :=
    fun empty => some_item (List.eq_nil_of_length_eq_zero empty)
  unfold taprootPubkey revealedKey
  simp only [stackLen, ← last, slice_p2tr length, parsed]
  rw [if_neg positive]
  by_cases script : 2 ≤ (taprootStack witness).length
  · rw [if_pos (show (taprootStack witness).length > 1 from script),
      if_pos script]
    obtain ⟨control, isLast⟩ :
        ∃ control, (taprootStack witness).getLast? = some control :=
      ⟨_, List.getLast?_eq_some_getLast some_item⟩
    rw [isLast, Option.map_some]
    dsimp only
    rw [if_neg (by have := branch control script isLast; omega)]
    by_cases nums : slice control 1 33 = numsH
    · simp [nums]
    · simp [nums]
  · rw [if_neg (show ¬ (taprootStack witness).length > 1 from script),
      if_neg script]
    simp

section Kinds

variable {keys} {crate}
variable {input : FinalizedInput} {key : Option G}

theorem AssignedKey.of_keyHash
    {hash : Bytes}
    (length : hash.length = 20)
    (assigned : KeyOfHash crate (· <:+: input.scriptSig) hash key) :
    AssignedKey keys crate input (p2pkh hash) key where
  keyHash := by
    intro hash' length' same
    rwa [← slice_p2pkh length', ← same, slice_p2pkh length]
  nested := by
    intro scriptHash _ scriptLength _ same
    have := congrArg List.length same
    simp [p2pkh, p2sh, length, scriptLength] at this
  otherP2sh := by
    intro scriptHash scriptLength same
    have := congrArg List.length same
    simp [p2pkh, p2sh, length, scriptLength] at this
  witnessKeyHash := by
    intro hash' length' same
    have := congrArg List.length same
    simp [p2pkh, p2wpkh, length, length'] at this
  taproot := by
    intro bytes _ length' same
    have := congrArg List.length same
    simp [p2pkh, p2tr, length, length'] at this
  other := fun unmatched => (unmatched (isP2pkh_p2pkh length)).elim

theorem AssignedKey.of_p2sh
    {scriptHash : Bytes}
    (scriptLength : scriptHash.length = 20)
    (nested :
      ∀ hash, hash.length = 20 → input.scriptSig = 22 :: p2wpkh hash →
        crate.hash160 (p2wpkh hash) = scriptHash →
          KeyOfHash crate (input.witness.getLast? = some ·) hash key)
    (otherwise :
      (∀ hash, hash.length = 20 → input.scriptSig = 22 :: p2wpkh hash →
        crate.hash160 (p2wpkh hash) ≠ scriptHash) → key = none) :
    AssignedKey keys crate input (p2sh scriptHash) key where
  keyHash := by
    intro hash length same
    have := congrArg List.length same
    simp [p2pkh, p2sh, length, scriptLength] at this
  nested := by
    intro scriptHash' hash length' length same pushed hashed
    refine nested hash length pushed ?_
    rw [hashed, ← slice_p2sh length', ← same, slice_p2sh scriptLength]
  otherP2sh := by
    intro scriptHash' length' same unpushed
    have one : scriptHash' = scriptHash := by
      rw [← slice_p2sh length', ← same, slice_p2sh scriptLength]
    exact otherwise (one ▸ unpushed)
  witnessKeyHash := by
    intro hash length same
    have := congrArg List.length same
    simp [p2sh, p2wpkh, length, scriptLength] at this
  taproot := by
    intro bytes _ length same
    have := congrArg List.length same
    simp [p2sh, p2tr, length, scriptLength] at this
  other := fun _ unmatched => (unmatched (isP2sh_p2sh scriptLength)).elim

theorem AssignedKey.of_witnessKeyHash
    {hash : Bytes}
    (length : hash.length = 20)
    (assigned :
      KeyOfHash crate (input.witness.getLast? = some ·) hash key) :
    AssignedKey keys crate input (p2wpkh hash) key where
  keyHash := by
    intro hash' length' same
    have := congrArg List.length same
    simp [p2pkh, p2wpkh, length, length'] at this
  nested := by
    intro scriptHash _ scriptLength _ same
    have := congrArg List.length same
    simp [p2wpkh, p2sh, length, scriptLength] at this
  otherP2sh := by
    intro scriptHash scriptLength same
    have := congrArg List.length same
    simp [p2wpkh, p2sh, length, scriptLength] at this
  witnessKeyHash := by
    intro hash' length' same
    rwa [← slice_p2wpkh length', ← same, slice_p2wpkh length]
  taproot := by
    intro bytes _ length' same
    have := congrArg List.length same
    simp [p2wpkh, p2tr, length, length'] at this
  other := fun _ _ unmatched => (unmatched (isP2wpkh_p2wpkh length)).elim

theorem AssignedKey.of_taproot
    {bytes : Bytes}
    {xonly : X}
    (length : bytes.length = 32)
    (parsed : crate.xOnlyKey bytes = some xonly)
    (assigned :
      key =
        if revealedKey input.witness = some numsH then
          none
        else
          some (keys.even xonly)) :
    AssignedKey keys crate input (p2tr bytes) key where
  keyHash := by
    intro hash length' same
    have := congrArg List.length same
    simp [p2pkh, p2tr, length, length'] at this
  nested := by
    intro scriptHash _ scriptLength _ same
    have := congrArg List.length same
    simp [p2tr, p2sh, length, scriptLength] at this
  otherP2sh := by
    intro scriptHash scriptLength same
    have := congrArg List.length same
    simp [p2tr, p2sh, length, scriptLength] at this
  witnessKeyHash := by
    intro hash length' same
    have := congrArg List.length same
    simp [p2tr, p2wpkh, length, length'] at this
  taproot := by
    intro bytes' xonly' length' same parsed'
    have one : bytes' = bytes := by
      rw [← slice_p2tr length', ← same, slice_p2tr length]
    rw [one, parsed, Option.some.injEq] at parsed'
    rw [← parsed', assigned]
  other := fun _ _ _ unmatched => (unmatched (isP2tr_p2tr length)).elim

theorem AssignedKey.of_other
    {spk : Bytes}
    (apart :
      ¬ isP2pkh spk ∧ ¬ isP2sh spk ∧ ¬ isP2wpkh spk ∧ ¬ isP2tr spk) :
    AssignedKey keys crate input spk none where
  keyHash := by
    rintro hash length rfl
    exact (apart.1 (isP2pkh_p2pkh length)).elim
  nested := by
    rintro scriptHash _ length _ rfl
    exact (apart.2.1 (isP2sh_p2sh length)).elim
  otherP2sh := fun _ _ _ _ => rfl
  witnessKeyHash := by
    rintro hash length rfl
    exact (apart.2.2.1 (isP2wpkh_p2wpkh length)).elim
  taproot := by
    rintro bytes _ length rfl
    exact (apart.2.2.2 (isP2tr_p2tr length)).elim
  other := fun _ _ _ _ => rfl

theorem taprootStack_keyPath
    {signature : Bytes}
    {annex : List Bytes}
    (annexed : Annex annex) :
    taprootStack (signature :: annex) = [signature] := by
  cases annexed with
  | absent | present rest =>
      simp [taprootStack, hasAnnex]

theorem taprootStack_scriptPath
    {control : Bytes}
    {stack annex : List Bytes}
    (annexed : Annex annex)
    (plain : annex = [] → control.head? ≠ some 0x50) :
    taprootStack (stack ++ control :: annex) = stack ++ [control] := by
  cases annexed with
  | absent =>
      simp [taprootStack, hasAnnex, plain rfl]
  | present rest =>
      have tagged :
          hasAnnex (stack ++ control :: [0x50 :: rest]) = true := by
        have last :
            (stack ++ [control, 0x50 :: rest]).getLast? =
              some (0x50 :: rest) := by
          rw [List.getLast?_append]
          rfl
        simp [hasAnnex, last]
      rw [taprootStack, if_pos tagged,
        show stack ++ control :: [0x50 :: rest] =
          (stack ++ [control]) ++ [0x50 :: rest] by simp,
        List.dropLast_concat]

variable (keys) (crate)

/-- An input is read without error as the key it is assigned. -/
def ReadsAssigned
    (input : FinalizedInput)
    (spk : Bytes) : Prop :=
  ∃ key, eligibleInputPubkey keys crate input spk = .ok key ∧
    AssignedKey keys crate input spk key

theorem readsAssigned_keyHash
    {hash scriptSig : Bytes}
    (length : hash.length = 20)
    (unlocked : scriptSig ≠ []) :
    ReadsAssigned keys crate ⟨scriptSig, []⟩ (p2pkh hash) := by
  refine ⟨(windows 33 scriptSig).reverse.findSome?
    (compressedPubkey crate · hash), ?_, .of_keyHash length ?_⟩
  · simp [eligibleInputPubkey, length, unlocked]
  · refine keyOfHash_findSome? crate (fun bytes size => ?_)
    rw [List.mem_reverse, mem_windows]
    simp [size]

variable {hash : Bytes} {spk : Bytes} (witness : List Bytes) {xonly : X}

theorem eligibleInputPubkey_nested
    (length : hash.length = 20)
    (scriptLength : (crate.hash160 (p2wpkh hash)).length = 20) :
    eligibleInputPubkey keys crate ⟨22 :: p2wpkh hash, witness⟩
        (p2sh (crate.hash160 (p2wpkh hash))) =
      witnessPubkey crate witness hash "invalid P2SH-P2WPKH spend" := by
  have only := only_p2sh (isP2sh_p2sh scriptLength)
  have size : (p2wpkh hash).length = 22 := by simp [p2wpkh, length]
  simp [eligibleInputPubkey, only, size, length, scriptLength]

theorem eligibleInputPubkey_witnessKeyHash
    (length : hash.length = 20) :
    eligibleInputPubkey keys crate ⟨[], witness⟩ (p2wpkh hash) =
      witnessPubkey crate witness hash "invalid P2WPKH spend" := by
  have only := only_p2wpkh (isP2wpkh_p2wpkh length)
  simp [eligibleInputPubkey, only, length]

theorem readsAssigned_otherP2sh
    {scriptHash scriptSig : Bytes}
    (length : scriptHash.length = 20)
    (unnested :
      ∀ hash, hash.length = 20 → scriptSig ≠ 22 :: p2wpkh hash) :
    ReadsAssigned keys crate ⟨scriptSig, witness⟩ (p2sh scriptHash) := by
  have only := only_p2sh (isP2sh_p2sh length)
  refine ⟨none, ?_, .of_p2sh length (fun hash length' pushed _ =>
    (unnested hash length' pushed).elim) (fun _ => rfl)⟩
  simp only [eligibleInputPubkey, only, isP2sh_p2sh length,
    Bool.false_eq_true, ↓reduceIte]
  split
  · rfl
  · next shape =>
      rw [not_or, not_not, not_not] at shape
      obtain ⟨redeemScript, pushed⟩ := List.head?_eq_some_iff.mp shape.2
      have foreign : ¬ isP2wpkh redeemScript := by
        intro template
        obtain ⟨hash, length', rfl⟩ := (isP2wpkh_iff redeemScript).mp template
        exact unnested hash length' pushed
      rw [pushed, List.drop_one, List.tail_cons, if_pos (.inl foreign)]

theorem eligibleInputPubkey_taproot
    {bytes : Bytes}
    {witness : List Bytes}
    (length : bytes.length = 32) :
    eligibleInputPubkey keys crate ⟨[], witness⟩ (p2tr bytes) =
      taprootPubkey keys crate witness (p2tr bytes) := by
  have only := only_p2tr (isP2tr_p2tr length)
  simp [eligibleInputPubkey, only, length]

theorem taprootPubkey_lone
    (rest spk : Bytes) :
    taprootPubkey keys crate [0x50 :: rest] spk =
      .error (.invalidInput "empty P2TR witness") := by
  simp [taprootPubkey]

theorem eligibleInputPubkey_lone
    (lone : LoneAnnex input spk) :
    ∃ cause, eligibleInputPubkey keys crate input spk = .error cause := by
  obtain ⟨template, rest, witness⟩ := lone
  have only := only_p2tr template
  by_cases unlocked : input.scriptSig = []
  · refine ⟨.invalidInput "empty P2TR witness", ?_⟩
    simp only [eligibleInputPubkey, only, template, unlocked, witness,
      taprootPubkey_lone, Bool.false_eq_true, ↓reduceIte, ne_eq,
      not_true_eq_false]
  · refine ⟨.invalidInput "non-empty P2TR scriptSig", ?_⟩
    simp only [eligibleInputPubkey, only, template, unlocked,
      Bool.false_eq_true, ↓reduceIte, ne_eq, not_false_eq_true]

theorem readsAssigned_keyPath
    {bytes signature : Bytes}
    {annex : List Bytes}
    (length : bytes.length = 32)
    (parsed : crate.xOnlyKey bytes = some xonly)
    (annexed : Annex annex)
    (accompanied : ∀ rest, signature :: annex ≠ [0x50 :: rest]) :
    ReadsAssigned keys crate ⟨[], signature :: annex⟩ (p2tr bytes) := by
  refine ⟨_, (eligibleInputPubkey_taproot keys crate length).trans
    (taprootPubkey_spec keys length parsed (List.cons_ne_nil _ _)
      accompanied ?_), .of_taproot length parsed rfl⟩
  intro control script
  rw [taprootStack_keyPath annexed] at script
  simp at script

/-- A script path is read as the output key, but for the key nobody holds. -/
theorem readsAssigned_scriptPath
    {bytes control : Bytes}
    {stack annex : List Bytes}
    (length : bytes.length = 32)
    (parsed : crate.xOnlyKey bytes = some xonly)
    (leaf : stack ≠ [])
    (branch : 33 ≤ control.length)
    (annexed : Annex annex)
    (plain : annex = [] → control.head? ≠ some 0x50) :
    ReadsAssigned keys crate ⟨[], stack ++ control :: annex⟩
      (p2tr bytes) := by
  obtain ⟨first, rest, rfl⟩ := List.exists_cons_of_ne_nil leaf
  refine ⟨_, (eligibleInputPubkey_taproot keys crate length).trans
    (taprootPubkey_spec keys length parsed (by simp) (fun _ => by simp) ?_),
    .of_taproot length parsed rfl⟩
  intro last _ isLast
  rw [taprootStack_scriptPath annexed plain, List.getLast?_concat,
    Option.some.injEq] at isLast
  exact isLast ▸ branch

theorem eligibleInputPubkey_other
    (apart :
      ¬ isP2pkh spk ∧ ¬ isP2sh spk ∧ ¬ isP2wpkh spk ∧ ¬ isP2tr spk) :
    eligibleInputPubkey keys crate input spk = .ok none := by
  simp [eligibleInputPubkey, apart]

theorem readsAssigned_other
    (apart :
      ¬ isP2pkh spk ∧ ¬ isP2sh spk ∧ ¬ isP2wpkh spk ∧ ¬ isP2tr spk) :
    ReadsAssigned keys crate input spk :=
  ⟨none, eligibleInputPubkey_other keys crate apart, .of_other apart⟩

end Kinds

/--
A valid input is read as the key it is assigned, except for a lone taproot
signature that starts like an annex and an uncompressed witness key.
-/
theorem readsAssigned_iff
    (input : FinalizedInput)
    (spk : Bytes)
    (valid : ValidSpend crate input spk) :
    ReadsAssigned keys crate input spk ↔
      ¬ LoneAnnex input spk ∧ ¬ UncompressedWitness input spk := by
  cases valid with
  | @keyHash hash scriptSig length unlocked =>
      have only := only_p2pkh (isP2pkh_p2pkh length)
      refine iff_of_true (readsAssigned_keyHash keys crate length unlocked) ?_
      simp [LoneAnnex, UncompressedWitness, only]
  | @nested hash signature pubkey length scriptLength hashed parsed =>
      have only := only_p2sh (isP2sh_p2sh scriptLength)
      have shape :
          (∃ hash' : Bytes, hash'.length = 20 ∧
            22 :: p2wpkh hash = 22 :: p2wpkh hash') := ⟨hash, length, rfl⟩
      have spec := witnessPubkey_spec signature
        "invalid P2SH-P2WPKH spend" hashed parsed
      have read := eligibleInputPubkey_nested keys crate [signature, pubkey]
        length scriptLength
      by_cases compressed : pubkey.length = 33
      · rw [if_pos compressed] at spec
        obtain ⟨key, found, ofHash⟩ := spec
        refine iff_of_true ⟨key, read.trans found,
          .of_p2sh scriptLength ?_ ?_⟩ ?_
        · intro hash' length' pushed _
          have one : p2wpkh hash = p2wpkh hash' := by simpa using pushed
          rwa [← slice_p2wpkh length', ← one, slice_p2wpkh length]
        · intro unpushed
          exact (unpushed hash length rfl rfl).elim
        · simp [LoneAnnex, UncompressedWitness, only, compressed]
      · rw [if_neg compressed] at spec
        refine iff_of_false ?_ (fun fine => fine.2 ⟨.inr
          ⟨isP2sh_p2sh scriptLength, shape⟩, pubkey, rfl, compressed⟩)
        rintro ⟨key, found, -⟩
        rw [read, spec] at found
        cases found
  | @otherP2sh scriptHash scriptSig witness length redeemed =>
      have only := only_p2sh (isP2sh_p2sh length)
      have unnested :
          ∀ hash, hash.length = 20 → scriptSig ≠ 22 :: p2wpkh hash := by
        intro hash length' pushed
        exact (redeemed _ pushed (by simp [p2wpkh, length'])).2
          (isP2wpkh_p2wpkh length')
      refine iff_of_true
        (readsAssigned_otherP2sh keys crate witness length unnested)
        ⟨?_, ?_⟩
      · simp [LoneAnnex, only]
      · rintro ⟨other | ⟨-, hash, length', pushed⟩, -⟩
        · simp [only] at other
        · exact unnested hash length' pushed
  | @witnessKeyHash hash signature pubkey length hashed parsed =>
      have only := only_p2wpkh (isP2wpkh_p2wpkh length)
      have spec := witnessPubkey_spec signature
        "invalid P2WPKH spend" hashed parsed
      have read := eligibleInputPubkey_witnessKeyHash keys crate
        [signature, pubkey] length
      by_cases compressed : pubkey.length = 33
      · rw [if_pos compressed] at spec
        obtain ⟨key, found, ofHash⟩ := spec
        refine iff_of_true ⟨key, read.trans found,
          .of_witnessKeyHash length ofHash⟩ ?_
        simp [LoneAnnex, UncompressedWitness, only, compressed]
      · rw [if_neg compressed] at spec
        refine iff_of_false ?_ (fun fine => fine.2 ⟨.inl
          (isP2wpkh_p2wpkh length), pubkey, rfl, compressed⟩)
        rintro ⟨key, found, -⟩
        rw [read, spec] at found
        cases found
  | @keyPath bytes signature annex xonly length parsed signed annexed =>
      have only := only_p2tr (isP2tr_p2tr length)
      by_cases lone : ∃ rest, signature :: annex = [0x50 :: rest]
      · refine iff_of_false ?_
          (fun fine => fine.1 ⟨isP2tr_p2tr length, lone⟩)
        obtain ⟨cause, failed⟩ :=
          eligibleInputPubkey_lone keys crate
            (show LoneAnnex ⟨[], signature :: annex⟩ (p2tr bytes) from
              ⟨isP2tr_p2tr length, lone⟩)
        rintro ⟨key, found, -⟩
        rw [failed] at found
        cases found
      · refine iff_of_true (readsAssigned_keyPath keys crate length parsed
          annexed (fun rest same => lone ⟨rest, same⟩)) ⟨?_, ?_⟩
        · exact fun alone => lone alone.2
        · simp [UncompressedWitness, only]
  | @scriptPath bytes control stack annex xonly length parsed leaf branch
      annexed plain =>
      have only := only_p2tr (isP2tr_p2tr length)
      obtain ⟨depth, branch⟩ := branch
      refine iff_of_true (readsAssigned_scriptPath keys crate length parsed
        leaf (by omega) annexed plain) ⟨?_, ?_⟩
      · rintro ⟨-, rest, same⟩
        obtain ⟨first, others, rfl⟩ := List.exists_cons_of_ne_nil leaf
        simp at same
      · simp [UncompressedWitness, only]
  | other apart =>
      refine iff_of_true (readsAssigned_other keys crate apart) ⟨?_, ?_⟩
      · exact fun lone => apart.2.2.2 lone.1
      · exact fun uncompressed =>
          uncompressed.1.elim apart.2.2.1 (fun nested => apart.2.1 nested.1)

end Assigned

namespace SpInputSample

/-- The residues of three: one key, and the point 1 stands for it. -/
def keys : XOnlyKeys (ZMod 3) Unit where
  key _ := ()
  even _ := 1
  key_even _ := rfl
  even_ne_zero := by decide
  key_eq_iff := by decide

/-- Every string of the right length is a key, and a hash keeps 20 bytes. -/
def crate : KeyCrate (ZMod 3) Unit where
  hash160 bytes := bytes.take 20
  publicKey bytes :=
    if bytes.length = 33 ∨ bytes.length = 65 then some 1 else none
  xOnlyKey _ := some ()

def outputKey : Bytes := List.replicate 32 7

/-- A key path spend by an ordinary signature. -/
theorem readsAssigned_iff_signature :
    ReadsAssigned keys crate ⟨[], [List.replicate 64 1]⟩ (p2tr outputKey) :=
  (readsAssigned_iff keys crate ⟨[], [List.replicate 64 1]⟩ (p2tr outputKey)
    (.keyPath (by decide) rfl (.inl rfl) .absent)).mpr
      ⟨by rintro ⟨-, rest, same⟩; simp [List.replicate] at same,
        by simp [UncompressedWitness, p2tr, isP2wpkh, isP2sh]⟩

/-- A signature that starts like an annex is not read. -/
theorem lone_signature_unread :
    ValidSpend crate ⟨[], [0x50 :: List.replicate 63 1]⟩ (p2tr outputKey) ∧
      eligibleInputPubkey keys crate ⟨[], [0x50 :: List.replicate 63 1]⟩
          (p2tr outputKey) =
        .error (.invalidInput "empty P2TR witness") ∧
      ¬ ReadsAssigned keys crate ⟨[], [0x50 :: List.replicate 63 1]⟩
        (p2tr outputKey) := by
  have read :
      eligibleInputPubkey keys crate ⟨[], [0x50 :: List.replicate 63 1]⟩
          (p2tr outputKey) =
        .error (.invalidInput "empty P2TR witness") :=
    (eligibleInputPubkey_taproot keys crate (by decide)).trans
      (taprootPubkey_lone keys crate _ _)
  refine ⟨.keyPath (by decide) rfl (.inl rfl) .absent, read, ?_⟩
  rintro ⟨key, found, -⟩
  rw [read] at found
  cases found

end SpInputSample

end Bwk
