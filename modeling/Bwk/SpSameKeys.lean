import Bwk.CheckedMath
import Bwk.SpSenderKeys

namespace Bwk

/-!
# Sender and receiver add up the same keys

The sender decides by descriptor, before anything is signed, what the receiver
decides by script and witness.  For every input it is the same key, so the two
sums are those of one secret and its point.
-/

section Loops

variable {ε Item Out : Type}

variable {round : Item → Except ε Out} {items : List Item}

theorem mapM_eq_ok_of_forall
    {out : Item → Out}
    (each : ∀ item ∈ items, round item = .ok (out item)) :
    items.mapM round = .ok (items.map out) := by
  induction items with
  | nil =>
      rfl
  | cons item rest inductionHypothesis =>
      rw [List.mapM_cons, each item List.mem_cons_self,
        inductionHypothesis (fun later member =>
          each later (List.mem_cons_of_mem _ member))]
      rfl

theorem exists_ok_of_mapM_eq_ok
    {outs : List Out}
    (all : items.mapM round = .ok outs)
    {item : Item}
    (member : item ∈ items) :
    ∃ out, round item = .ok out := by
  induction items generalizing outs with
  | nil =>
      cases member
  | cons first rest inductionHypothesis =>
      rw [List.mapM_cons] at all
      obtain ⟨out, here, later⟩ := bind_eq_ok.mp all
      obtain ⟨others, there, -⟩ := bind_eq_ok.mp later
      rcases List.mem_cons.mp member with rfl | further
      · exact ⟨out, here⟩
      · exact inductionHypothesis there further

theorem mapM_eq_error_of_mem
    {round : Item → Except ε Out}
    {items : List Item}
    {item : Item}
    (member : item ∈ items)
    (fails : ∃ cause, round item = .error cause) :
    ∃ cause, items.mapM round = .error cause := by
  cases all : items.mapM round with
  | error cause =>
      exact ⟨cause, rfl⟩
  | ok outs =>
      obtain ⟨out, here⟩ := exists_ok_of_mapM_eq_ok all member
      obtain ⟨cause, failed⟩ := fails
      rw [here] at failed
      cases failed

end Loops

namespace InputCrate

variable {S G X : Type} [CommRing S] [AddCommGroup G] [Module S G]
variable (crate : InputCrate S G X)

/-- An unlocking half that signing leaves for a descriptor. -/
inductive Unlocks : SpendDescriptor G → FinalizedInput → Prop
  | pkh
      {key : DescriptorKey G}
      {scriptSig : Bytes}
      (pushed : crate.serialize key.compressed key.point <:+: scriptSig) :
      Unlocks (.pkh key) ⟨scriptSig, []⟩
  | wpkh
      {key : DescriptorKey G}
      {compressed : key.compressed = true}
      {signature : Bytes} :
      Unlocks (.wpkh key compressed)
        ⟨[], [signature, crate.serialize key.compressed key.point]⟩
  | shWpkh
      {key : DescriptorKey G}
      {compressed : key.compressed = true}
      {signature : Bytes} :
      Unlocks (.shWpkh key compressed)
        ⟨22 :: p2wpkh (crate.hash160
            (crate.serialize key.compressed key.point)),
          [signature, crate.serialize key.compressed key.point]⟩
  /-- A script signature of one push pushes the redeem script. -/
  | sh
      {redeemScript scriptSig : Bytes}
      {foreign : isP2wpkh redeemScript = false}
      {witness : List Bytes}
      (pushed :
        ∀ script, scriptSig = 22 :: script → script.length = 22 →
          script = redeemScript) :
      Unlocks (.sh redeemScript foreign) ⟨scriptSig, witness⟩
  /-- Nobody signs for the internal key nobody holds. -/
  | keyPath
      {internalKey : DescriptorKey G}
      {merkleRoot : Option Bytes}
      {signature : Bytes}
      {annex : List Bytes}
      (held : crate.serializeX (crate.key internalKey.point) ≠ numsH)
      (signed : signature.length = 64 ∨ signature.length = 65)
      (annexed : Annex annex) :
      Unlocks (.tr internalKey merkleRoot) ⟨[], signature :: annex⟩
  /-- A control block names the internal key. -/
  | scriptPath
      {internalKey : DescriptorKey G}
      {merkleRoot : Option Bytes}
      {control : Bytes}
      {stack annex : List Bytes}
      (leaf : stack ≠ [])
      (branch : ∃ depth, control.length = 33 + 32 * depth)
      (names :
        slice control 1 33 = crate.serializeX (crate.key internalKey.point))
      (annexed : Annex annex)
      (plain : annex = [] → control.head? ≠ some 0x50) :
      Unlocks (.tr internalKey merkleRoot) ⟨[], stack ++ control :: annex⟩
  | wsh
      {program : Bytes}
      {length : program.length = 32}
      {input : FinalizedInput} :
      Unlocks (.wsh program length) input
  | bare
      {script : Bytes}
      {input : FinalizedInput} :
      Unlocks (.bare script) input

inductive Signed (bSpend : S) : InputCoin S G × FinalizedInput → Prop
  | sp
      {outpoint : OutPoint}
      {tweak : S}
      {signature : Bytes}
      {annex : List Bytes}
      (signed : signature.length = 64 ∨ signature.length = 65)
      (annexed : Annex annex) :
      Signed bSpend
        (⟨outpoint,
            p2tr (crate.serializeX
              (crate.key ((bSpend + tweak) • crate.generator))),
            .sp tweak⟩,
          ⟨[], signature :: annex⟩)
  | bip32
      {outpoint : OutPoint}
      {scriptPubkey : Bytes}
      {derived : Option (SpendDescriptor G)}
      {input : FinalizedInput}
      (unlocked : ∀ descriptor, derived = some descriptor →
        crate.Unlocks descriptor input) :
      Signed bSpend (⟨outpoint, scriptPubkey, .bip32 derived⟩, input)

/-- No other 33 bytes of a script signature have the hash of its key. -/
def HashApart (spend : InputCoin S G × FinalizedInput) : Prop :=
  ∀ key, spend.1.spendInfo = .bip32 (some (.pkh key)) →
    ∀ bytes, bytes.length = 33 → bytes <:+: spend.2.scriptSig →
      crate.hash160 bytes =
          crate.hash160 (crate.serialize key.compressed key.point) →
        bytes = crate.serialize key.compressed key.point

/-- The script of a bare descriptor is of none of the templates. -/
def BareApart (spend : InputCoin S G × FinalizedInput) : Prop :=
  ∀ script, spend.1.spendInfo = .bip32 (some (.bare script)) →
    ¬ isP2pkh script ∧ ¬ isP2sh script ∧ ¬ isP2wpkh script ∧
      ¬ isP2tr script

variable {crate} {key : DescriptorKey G}

theorem eligible_pkh
    {scriptSig : Bytes}
    (pushed : crate.serialize key.compressed key.point <:+: scriptSig)
    (apart :
      ∀ bytes, bytes.length = 33 → bytes <:+: scriptSig →
        crate.hash160 bytes =
            crate.hash160 (crate.serialize key.compressed key.point) →
          bytes = crate.serialize key.compressed key.point) :
    eligibleInputPubkey crate.toXOnlyKeys crate.toKeyCrate ⟨scriptSig, []⟩
        (crate.scriptPubkey (.pkh key)) =
      .ok (if key.compressed then some key.point else none) := by
  have unlocked : scriptSig ≠ [] := by
    rintro rfl
    have empty := List.length_eq_zero_iff.mpr (List.infix_nil.mp pushed)
    cases shape : key.compressed with
    | false =>
        rw [shape, crate.uncompressed_length] at empty
        cases empty
    | true =>
        rw [shape, crate.compressed_length] at empty
        cases empty
  obtain ⟨found, read, assigned⟩ :=
    readsAssigned_keyHash crate.toXOnlyKeys crate.toKeyCrate
      (crate.hash160_length (crate.serialize key.compressed key.point))
      unlocked
  have ofHash := assigned.keyHash _ (crate.hash160_length _) rfl
  rw [show crate.scriptPubkey (.pkh key) =
    p2pkh (crate.hash160 (crate.serialize key.compressed key.point)) from rfl,
    read]
  cases shape : key.compressed with
  | true =>
      rw [shape] at apart pushed ofHash
      cases found with
      | none =>
          have unread := ofHash.unmatched rfl _ pushed
            (crate.compressed_length _) rfl
          rw [crate.publicKey_serialize _ key.finite] at unread
          cases unread
      | some point =>
          obtain ⟨bytes, inside, length, hashed, parsed⟩ :=
            ofHash.compressed point rfl
          rw [apart bytes length inside hashed,
            crate.publicKey_serialize _ key.finite] at parsed
          cases parsed
          rfl
  | false =>
      rw [shape] at apart ofHash
      cases found with
      | none =>
          rfl
      | some point =>
          obtain ⟨bytes, inside, length, hashed, parsed⟩ :=
            ofHash.compressed point rfl
          rw [apart bytes length inside hashed,
            crate.uncompressed_length] at length
          cases length

theorem witnessPubkey_serialize
    (compressed : key.compressed = true)
    (signature : Bytes)
    (reason : String) :
    witnessPubkey crate.toKeyCrate
        [signature, crate.serialize key.compressed key.point]
        (crate.hash160 (crate.serialize key.compressed key.point)) reason =
      .ok (some key.point) := by
  simp [witnessPubkey, compressedPubkey, compressed, crate.compressed_length,
    crate.publicKey_serialize _ key.finite]

theorem eligible_sh
    {redeemScript scriptSig : Bytes}
    {witness : List Bytes}
    (foreign : isP2wpkh redeemScript = false)
    (pushed :
      ∀ script, scriptSig = 22 :: script → script.length = 22 →
        script = redeemScript) :
    eligibleInputPubkey crate.toXOnlyKeys crate.toKeyCrate
        ⟨scriptSig, witness⟩ (crate.scriptPubkey (.sh redeemScript foreign)) =
      .ok none := by
  have unnested :
      ∀ hash, hash.length = 20 → scriptSig ≠ 22 :: p2wpkh hash := by
    intro hash length same
    have template := isP2wpkh_p2wpkh length
    rw [pushed _ same (by simp [p2wpkh, length]), foreign] at template
    cases template
  obtain ⟨found, read, assigned⟩ :=
    readsAssigned_otherP2sh crate.toXOnlyKeys crate.toKeyCrate witness
      (crate.hash160_length redeemScript) unnested
  have none_left := assigned.otherP2sh _ (crate.hash160_length _) rfl
    (fun hash length same => (unnested hash length same).elim)
  rw [← none_left]
  exact read

theorem eligible_tr
    {internalKey : DescriptorKey G}
    {merkleRoot : Option Bytes}
    {input : FinalizedInput}
    (unlocked : crate.Unlocks (.tr internalKey merkleRoot) input)
    (accompanied :
      ¬ LoneAnnex input (crate.scriptPubkey (.tr internalKey merkleRoot))) :
    eligibleInputPubkey crate.toXOnlyKeys crate.toKeyCrate input
        (crate.scriptPubkey (.tr internalKey merkleRoot)) =
      .ok
        (if crate.serializeX (crate.key internalKey.point) = numsH then
          none
        else
          some (crate.even
            (crate.outputKey (crate.key internalKey.point) merkleRoot))) := by
  have length :=
    crate.serializeX_length
      (crate.outputKey (crate.key internalKey.point) merkleRoot)
  have parsed :=
    crate.xOnlyKey_serializeX
      (crate.outputKey (crate.key internalKey.point) merkleRoot)
  cases unlocked with
  | @keyPath _ _ signature annex held signed annexed =>
      obtain ⟨found, read, assigned⟩ :=
        readsAssigned_keyPath crate.toXOnlyKeys crate.toKeyCrate length
          parsed annexed (fun rest same => accompanied
            ⟨isP2tr_p2tr length, rest, same⟩)
      have shape := assigned.taproot _ _ length rfl parsed
      have hidden : revealedKey (signature :: annex) = none := by
        rw [revealedKey, taprootStack_keyPath annexed]
        rfl
      rw [hidden, if_neg (by simp)] at shape
      rw [if_neg held, ← shape]
      exact read
  | @scriptPath _ _ control stack annex leaf branch names annexed plain =>
      obtain ⟨depth, branch⟩ := branch
      obtain ⟨found, read, assigned⟩ :=
        readsAssigned_scriptPath crate.toXOnlyKeys crate.toKeyCrate length
          parsed leaf (show 33 ≤ control.length by omega) annexed plain
      have shape := assigned.taproot _ _ length rfl parsed
      have revealed :
          revealedKey (stack ++ control :: annex) =
            some (crate.serializeX (crate.key internalKey.point)) := by
        obtain ⟨first, rest, rfl⟩ := List.exists_cons_of_ne_nil leaf
        rw [revealedKey, taprootStack_scriptPath annexed plain,
          if_pos (by simp), List.getLast?_concat, Option.map_some, names]
      rw [revealed] at shape
      by_cases nums : crate.serializeX (crate.key internalKey.point) = numsH
      · rw [if_pos (congrArg some nums)] at shape
        rw [if_pos nums, ← shape]
        exact read
      · rw [if_neg (fun same => nums (Option.some.inj same))] at shape
        rw [if_neg nums, ← shape]
        exact read

theorem eligible_sp
    {xonly : X}
    {signature : Bytes}
    {annex : List Bytes}
    (annexed : Annex annex)
    (accompanied :
      ¬ LoneAnnex ⟨[], signature :: annex⟩
        (p2tr (crate.serializeX xonly))) :
    eligibleInputPubkey crate.toXOnlyKeys crate.toKeyCrate
        ⟨[], signature :: annex⟩ (p2tr (crate.serializeX xonly)) =
      .ok (some (crate.even xonly)) := by
  have length := crate.serializeX_length xonly
  have parsed := crate.xOnlyKey_serializeX xonly
  obtain ⟨found, read, assigned⟩ :=
    readsAssigned_keyPath crate.toXOnlyKeys crate.toKeyCrate length parsed
      annexed (fun rest same => accompanied ⟨isP2tr_p2tr length, rest, same⟩)
  have shape := assigned.taproot _ _ length rfl parsed
  have hidden : revealedKey (signature :: annex) = none := by
    rw [revealedKey, taprootStack_keyPath annexed]
    rfl
  rw [hidden, if_neg (by simp)] at shape
  rw [← shape]
  exact read

variable [DecidableEq S] [DecidableEq G] [DecidableEq X]

def readKey (crate : InputCrate S G X) (key : S × Bool) : G :=
  crate.signedSecret key • crate.generator

omit [DecidableEq S] [DecidableEq X] in
theorem readKey_taproot
    {secret : S}
    (some_secret : secret ≠ 0) :
    crate.readKey (secret, true) =
      crate.even (crate.key (secret • crate.generator)) := by
  have finite : secret • crate.generator ≠ 0 :=
    fun zero => some_secret (crate.faithful secret zero)
  unfold readKey signedSecret isEven
  by_cases even :
      secret • crate.generator =
        crate.even (crate.key (secret • crate.generator))
  · simp [← even]
  · have flipped :=
      ((crate.eq_key_iff finite).mp rfl).resolve_left (Ne.symm even)
    simp only [even, decide_false, Bool.false_eq_true, not_false_eq_true,
      and_self, ↓reduceIte, neg_smul]
    exact flipped.symm

omit [DecidableEq S] [DecidableEq X] in
theorem readKey_plain (secret : S) :
    crate.readKey (secret, false) = secret • crate.generator := by
  simp [readKey, signedSecret]

variable {bSpend : S} {xprivs : BTreeMap Nat (List Nat → Option S)}

variable {found : Option (S × Bool)}

omit [DecidableEq S] [DecidableEq X] in
theorem singleKeyInputKey_spec
    (sent : crate.singleKeyInputKey xprivs key = .ok found) :
    found.map crate.readKey =
        (if key.compressed then some key.point else none) ∧
      ∀ own, found = some own → own.1 ≠ 0 := by
  unfold singleKeyInputKey at sent
  cases compressed : key.compressed with
  | false =>
      rw [compressed] at sent
      cases sent
      simp
  | true =>
      simp only [compressed, Bool.not_true, Bool.false_eq_true,
        ↓reduceIte] at sent
      obtain ⟨secret, -, checked⟩ := bind_eq_ok.mp sent
      by_cases same : secret • crate.generator = key.point
      · rw [if_neg (not_not.mpr same)] at checked
        cases checked
        refine ⟨by simp [readKey_plain, same], ?_⟩
        rintro own ⟨⟩ zero
        rw [show secret = 0 from zero, zero_smul] at same
        exact key.finite same.symm
      · rw [if_pos same] at checked
        cases checked

theorem taprootInputKey_spec
    {internalKey : DescriptorKey G}
    {merkleRoot : Option Bytes}
    (sent :
      crate.taprootInputKey xprivs internalKey merkleRoot = .ok found) :
    found.map crate.readKey =
        (if crate.serializeX (crate.key internalKey.point) = numsH then
          none
        else
          some (crate.even
            (crate.outputKey (crate.key internalKey.point) merkleRoot))) ∧
      ∀ own, found = some own → own.1 ≠ 0 := by
  unfold taprootInputKey at sent
  by_cases nums : crate.serializeX (crate.key internalKey.point) = numsH
  · rw [if_pos nums] at sent
    cases sent
    simp [nums]
  · rw [if_neg nums] at sent
    obtain ⟨secret, -, tweaks⟩ := bind_eq_ok.mp sent
    dsimp only at tweaks
    generalize
      (if crate.isEven (secret • crate.generator) then secret else -secret) +
        crate.tapTweakHash (crate.key (secret • crate.generator))
          merkleRoot = tweaked at tweaks
    by_cases zero : tweaked = 0
    · rw [if_pos zero] at tweaks
      cases tweaks
    · rw [if_neg zero] at tweaks
      by_cases same :
          crate.key (tweaked • crate.generator) =
            crate.outputKey (crate.key internalKey.point) merkleRoot
      · rw [if_neg (not_not.mpr same)] at tweaks
        cases tweaks
        refine ⟨by simp [nums, readKey_taproot zero, same], ?_⟩
        rintro own ⟨⟩
        exact zero
      · rw [if_pos same] at tweaks
        cases tweaks

omit [DecidableEq X] in
theorem spInputKey_spec
    (crate : InputCrate S G X)
    {tweak : S}
    {own : S × Bool}
    (sent : spInputKey bSpend tweak = .ok own) :
    crate.readKey own =
        crate.even (crate.key ((bSpend + tweak) • crate.generator)) ∧
      own.1 ≠ 0 := by
  unfold spInputKey at sent
  by_cases untweaked : tweak = 0
  · rw [if_pos untweaked] at sent
    cases sent
  · rw [if_neg untweaked] at sent
    unfold addTweak at sent
    by_cases zero : bSpend + tweak = 0
    · rw [if_pos zero] at sent
      cases sent
    · rw [if_neg zero] at sent
      cases sent
      exact ⟨readKey_taproot zero, zero⟩

theorem eligible_of_bip352InputKey
    {spend : InputCoin S G × FinalizedInput}
    (signed : crate.Signed bSpend spend)
    (hashApart : crate.HashApart spend)
    (bareApart : BareApart spend)
    (accompanied : ¬ LoneAnnex spend.2 spend.1.scriptPubkey)
    (sent : crate.bip352InputKey bSpend xprivs spend.1 = .ok found) :
    eligibleInputPubkey crate.toXOnlyKeys crate.toKeyCrate spend.2
        spend.1.scriptPubkey =
      .ok (found.map crate.readKey) := by
  cases signed with
  | @sp outpoint tweak signature annex signed annexed =>
      rw [bip352InputKey] at sent
      dsimp only at sent
      cases read : spInputKey bSpend tweak with
      | error cause =>
          rw [read] at sent
          cases sent
      | ok own =>
          rw [read] at sent
          cases sent
          rw [Option.map_some, (spInputKey_spec crate read).1]
          exact eligible_sp annexed accompanied
  | @bip32 outpoint scriptPubkey derived input unlocked =>
      rw [bip352InputKey] at sent
      cases derived with
      | none =>
          cases sent
      | some descriptor =>
          have unlocks := unlocked descriptor rfl
          by_cases pays : crate.scriptPubkey descriptor = scriptPubkey
          · subst pays
            simp only [ne_eq, not_true_eq_false, ↓reduceIte] at sent
            cases unlocks with
            | pkh pushed =>
                rw [(singleKeyInputKey_spec sent).1]
                exact eligible_pkh pushed (fun bytes length inside =>
                  hashApart _ rfl bytes length inside)
            | @wpkh key compressed signature =>
                rw [(singleKeyInputKey_spec sent).1, if_pos compressed]
                exact (eligibleInputPubkey_witnessKeyHash _ _ _
                  (crate.hash160_length _)).trans
                    (witnessPubkey_serialize compressed _ _)
            | @shWpkh key compressed signature =>
                rw [(singleKeyInputKey_spec sent).1, if_pos compressed]
                exact (eligibleInputPubkey_nested _ _ _
                  (crate.hash160_length _) (crate.hash160_length _)).trans
                    (witnessPubkey_serialize compressed _ _)
            | @sh redeemScript scriptSig foreign witness pushed =>
                cases sent
                exact eligible_sh foreign pushed
            | keyPath held signed annexed =>
                rw [(taprootInputKey_spec sent).1]
                exact eligible_tr (.keyPath held signed annexed) accompanied
            | scriptPath leaf branch names annexed plain =>
                rw [(taprootInputKey_spec sent).1]
                exact eligible_tr
                  (.scriptPath leaf branch names annexed plain) accompanied
            | @wsh program length input =>
                cases sent
                have apart :
                    ¬ isP2pkh ([0x00, 0x20] ++ program) ∧
                      ¬ isP2sh ([0x00, 0x20] ++ program) ∧
                      ¬ isP2wpkh ([0x00, 0x20] ++ program) ∧
                      ¬ isP2tr ([0x00, 0x20] ++ program) := by
                  simp [isP2pkh, isP2sh, isP2wpkh, isP2tr, length]
                exact eligibleInputPubkey_other _ _ apart
            | @bare script input =>
                cases sent
                exact eligibleInputPubkey_other _ _ (bareApart script rfl)
          · simp only [ne_eq, pays, not_false_eq_true, ↓reduceIte] at sent
            cases sent

theorem bip352InputKey_ne_zero
    {coin : InputCoin S G}
    {own : S × Bool}
    (sent : crate.bip352InputKey bSpend xprivs coin = .ok (some own)) :
    own.1 ≠ 0 := by
  unfold bip352InputKey at sent
  split at sent
  · next tweak info =>
      cases read : spInputKey bSpend tweak with
      | error cause =>
          rw [read] at sent
          cases sent
      | ok found =>
          rw [read] at sent
          cases sent
          exact (spInputKey_spec crate read).2
  · cases sent
  · split at sent
    · cases sent
    · split at sent
      · exact (singleKeyInputKey_spec sent).2 own rfl
      · exact (singleKeyInputKey_spec sent).2 own rfl
      · exact (singleKeyInputKey_spec sent).2 own rfl
      · exact (taprootInputKey_spec sent).2 own rfl
      all_goals cases sent

theorem foldlM_addTweak
    {head sum : S}
    {tail : List S}
    (added : tail.foldlM addTweak head = .ok sum) :
    sum = head + tail.sum ∧ (head ≠ 0 → sum ≠ 0) := by
  induction tail generalizing head with
  | nil =>
      cases added
      exact ⟨by simp, id⟩
  | cons first rest inductionHypothesis =>
      rw [List.foldlM_cons] at added
      obtain ⟨partial_sum, here, later⟩ := bind_eq_ok.mp added
      unfold addTweak at here
      split at here
      · cases here
      · next finite =>
          cases here
          have after := inductionHypothesis later
          refine ⟨?_, fun _ => after.2 finite⟩
          rw [after.1, List.sum_cons, add_assoc]

omit [DecidableEq X] in
theorem getASumSecretKeys_spec
    {input : List (S × Bool)}
    {aSum : S}
    (summed : crate.getASumSecretKeys input = .ok aSum)
    (nonzero : ∀ own ∈ input, own.1 ≠ 0) :
    input ≠ [] ∧ aSum ≠ 0 ∧
      aSum • crate.generator = (input.map crate.readKey).sum := by
  unfold getASumSecretKeys at summed
  cases input with
  | nil =>
      cases summed
  | cons head tail =>
      obtain ⟨total, finite⟩ := foldlM_addTweak summed
      have signed : crate.signedSecret head ≠ 0 := by
        unfold signedSecret
        split
        · exact neg_ne_zero.mpr (nonzero head List.mem_cons_self)
        · exact nonzero head List.mem_cons_self
      refine ⟨List.cons_ne_nil _ _, finite signed, ?_⟩
      rw [total, add_smul, List.map_cons, List.sum_cons]
      congr 1
      clear summed total finite signed nonzero
      induction tail with
      | nil =>
          simp
      | cons first rest inductionHypothesis =>
          simp only [List.map_cons, List.sum_cons, add_smul]
          rw [inductionHypothesis]
          rfl

omit [DecidableEq S] [DecidableEq G] [DecidableEq X] in
theorem calculateInputHash_perm
    {outpoints others : List OutPoint}
    (same : outpoints.Perm others)
    (aSum : G) :
    crate.calculateInputHash outpoints aSum =
      crate.calculateInputHash others aSum := by
  have sorted :
      ∀ rows : List Bytes,
        (rows.mergeSort (fun first second => first ≤ second)).Pairwise
          (fun first second => first ≤ second) := by
    intro rows
    refine (@List.pairwise_mergeSort Bytes
      (fun first second => decide (first ≤ second)) ?_ ?_ rows).imp ?_
    · intro first second third before after
      simp only [decide_eq_true_eq] at before after ⊢
      exact List.le_trans before after
    · intro first second
      simpa using List.le_total first second
    · intro first second before
      simpa using before
  have one :
      (outpoints.map crate.outpointBytes).mergeSort
          (fun first second => first ≤ second) =
        (others.map crate.outpointBytes).mergeSort
          (fun first second => first ≤ second) :=
    List.Perm.eq_of_pairwise
      (fun first second _ _ before after =>
        List.le_antisymm before after)
      (sorted _) (sorted _)
      ((List.mergeSort_perm _ _).trans
        ((same.map _).trans (List.mergeSort_perm _ _).symm))
  rw [calculateInputHash, calculateInputHash, one]

/-- The tweak data that a receiver finds in signed inputs. -/
def TweakData
    (crate : InputCrate S G X)
    (spends : List (InputCoin S G × FinalizedInput))
    (tweak : G) : Prop :=
  ∃ pubkeys,
    crate.inputPubkeys
        (spends.map (fun spend => (spend.2, spend.1.scriptPubkey))) =
      .ok pubkeys ∧
    crate.calculateTweakData pubkeys
        (spends.map (fun spend => spend.1.outpoint)) =
      .ok tweak

variable {spends inputs : List (InputCoin S G × FinalizedInput)} {secret : S}

omit [DecidableEq X] in
theorem calculateTweakData_of_partialSecret
    {input : List (S × Bool)}
    {pubkeys : List G}
    {outpoints others : List OutPoint}
    (calculated :
      crate.calculatePartialSecret input outpoints = .ok secret)
    (nonzero : ∀ own ∈ input, own.1 ≠ 0)
    (sameKeys : pubkeys.Perm (input.map crate.readKey))
    (sameOutpoints : others.Perm outpoints) :
    crate.calculateTweakData pubkeys others =
      .ok (secret • crate.generator) := by
  obtain ⟨aSum, total, hashes⟩ := bind_eq_ok.mp calculated
  obtain ⟨inputHash, hashed, multiplied⟩ := bind_eq_ok.mp hashes
  obtain ⟨some_key, finite, points⟩ := getASumSecretKeys_spec total nonzero
  have sums : pubkeys.sum = aSum • crate.generator := by
    rw [points, sameKeys.sum_eq]
  have some_pubkey : pubkeys ≠ [] := by
    rintro rfl
    exact some_key (List.map_eq_nil_iff.mp sameKeys.nil_eq.symm)
  have infinite : aSum • crate.generator ≠ 0 :=
    fun zero => finite (crate.faithful aSum zero)
  have sameHash :
      crate.calculateInputHash others (aSum • crate.generator) =
        .ok inputHash := by
    rw [← hashed]
    exact calculateInputHash_perm sameOutpoints _
  unfold mulTweak at multiplied
  split at multiplied
  · cases multiplied
  · next hashNonzero =>
      cases multiplied
      rw [calculateTweakData, combineKeys, sums,
        if_neg (by simp [some_pubkey, infinite]), ok_bind, sameHash,
        ok_bind, if_neg hashNonzero, mul_smul]

theorem inputPubkeys_of_inputKeys
    {inputKeys : List (Option (S × Bool))}
    (collected :
      (spends.map Prod.fst).mapM (crate.bip352InputKey bSpend xprivs) =
        .ok inputKeys)
    (signed : ∀ spend ∈ spends, crate.Signed bSpend spend)
    (hashApart : ∀ spend ∈ spends, crate.HashApart spend)
    (reordered : inputs.Perm spends)
    (bareApart : ∀ spend ∈ spends, BareApart spend)
    (accompanied :
      ∀ spend ∈ spends, ¬ LoneAnnex spend.2 spend.1.scriptPubkey) :
    (∀ own ∈ inputKeys.filterMap id, own.1 ≠ 0) ∧
      ∃ pubkeys,
        crate.inputPubkeys
            (inputs.map (fun spend => (spend.2, spend.1.scriptPubkey))) =
          .ok pubkeys ∧
        pubkeys.Perm ((inputKeys.filterMap id).map crate.readKey) := by
  -- The key each coin adds, as a function of the coin.
  let keyOf (coin : InputCoin S G) : Option (S × Bool) :=
    match crate.bip352InputKey bSpend xprivs coin with
    | .ok found => found
    | .error _ => none
  have sends :
      ∀ coin ∈ spends.map Prod.fst,
        crate.bip352InputKey bSpend xprivs coin = .ok (keyOf coin) := by
    intro coin member
    obtain ⟨found, here⟩ := exists_ok_of_mapM_eq_ok collected member
    simp only [keyOf, here]
  have keys : inputKeys = (spends.map Prod.fst).map keyOf := by
    rw [mapM_eq_ok_of_forall sends] at collected
    exact (Except.ok.inj collected).symm
  have reads :
      ∀ spend ∈ inputs,
        eligibleInputPubkey crate.toXOnlyKeys crate.toKeyCrate spend.2
            spend.1.scriptPubkey =
          .ok ((keyOf spend.1).map crate.readKey) := by
    intro spend member
    have inside := reordered.mem_iff.mp member
    exact eligible_of_bip352InputKey (signed spend inside)
      (hashApart spend inside) (bareApart spend inside)
      (accompanied spend inside)
      (sends spend.1 (List.mem_map_of_mem inside))
  refine ⟨?_, (inputs.map (fun spend =>
    (keyOf spend.1).map crate.readKey)).filterMap id, ?_, ?_⟩
  · intro own member
    obtain ⟨found, listed, here⟩ := List.mem_filterMap.mp member
    rw [keys] at listed
    obtain ⟨coin, inside, rfl⟩ := List.mem_map.mp listed
    have shape : keyOf coin = some own := here
    exact bip352InputKey_ne_zero ((sends coin inside).trans
      (congrArg Except.ok shape))
  · rw [inputPubkeys, List.mapM_map]
    exact congrArg (Except.map (List.filterMap id))
      (mapM_eq_ok_of_forall reads)
  · have flat :
        (inputKeys.filterMap id).map crate.readKey =
          (spends.map (fun spend =>
            (keyOf spend.1).map crate.readKey)).filterMap id := by
      rw [keys, List.map_map, List.filterMap_map, List.filterMap_map,
        List.map_filterMap]
      rfl
    rw [flat]
    exact (reordered.map _).filterMap _

theorem tweakData_of_partialSecret
    (sent :
      crate.partialSecret bSpend xprivs (spends.map Prod.fst) = .ok secret)
    (signed : ∀ spend ∈ spends, crate.Signed bSpend spend)
    (hashApart : ∀ spend ∈ spends, crate.HashApart spend)
    (reordered : inputs.Perm spends)
    (bareApart : ∀ spend ∈ spends, BareApart spend)
    (accompanied :
      ∀ spend ∈ spends, ¬ LoneAnnex spend.2 spend.1.scriptPubkey) :
    crate.TweakData inputs (secret • crate.generator) := by
  obtain ⟨inputKeys, collected, summed⟩ := bind_eq_ok.mp sent
  obtain ⟨nonzero, pubkeys, read, sameKeys⟩ :=
    inputPubkeys_of_inputKeys collected signed hashApart reordered bareApart
      accompanied
  refine ⟨pubkeys, read, ?_⟩
  cases calculated :
      crate.calculatePartialSecret (inputKeys.filterMap id)
        ((spends.map Prod.fst).map InputCoin.outpoint) with
  | error cause =>
      rw [calculated] at summed
      cases summed
  | ok found =>
      rw [calculated] at summed
      cases summed
      refine calculateTweakData_of_partialSecret calculated nonzero sameKeys
        ?_
      rw [List.map_map]
      exact reordered.map _

omit [DecidableEq X] in
theorem not_tweakData_of_lone
    {inputs : List (InputCoin S G × FinalizedInput)}
    {spend : InputCoin S G × FinalizedInput}
    (member : spend ∈ inputs)
    (lone : LoneAnnex spend.2 spend.1.scriptPubkey)
    (tweak : G) :
    ¬ crate.TweakData inputs tweak := by
  rintro ⟨pubkeys, read, -⟩
  obtain ⟨cause, failed⟩ :=
    @mapM_eq_error_of_mem _ _ _
      (fun spend : FinalizedInput × Bytes =>
        eligibleInputPubkey crate.toXOnlyKeys crate.toKeyCrate spend.1
          spend.2)
      (inputs.map (fun spend => (spend.2, spend.1.scriptPubkey)))
      (spend.2, spend.1.scriptPubkey)
      (List.mem_map.mpr ⟨spend, member, rfl⟩)
      (eligibleInputPubkey_lone _ _ lone)
  rw [inputPubkeys, failed] at read
  cases read

/--
Where no bare descriptor has the script of a template, a sender and a receiver
derive the same from the inputs, unless a lone taproot signature starts like
an annex; then the receiver derives nothing.
-/
theorem partialSecret_matches
    (crate : InputCrate S G X)
    (bSpend : S)
    (xprivs : BTreeMap Nat (List Nat → Option S))
    (spends inputs : List (InputCoin S G × FinalizedInput))
    (secret : S)
    (sent :
      crate.partialSecret bSpend xprivs (spends.map Prod.fst) = .ok secret)
    (signed : ∀ spend ∈ spends, crate.Signed bSpend spend)
    (hashApart : ∀ spend ∈ spends, crate.HashApart spend)
    (reordered : inputs.Perm spends) :
    ((∀ spend ∈ spends, BareApart spend) →
        (∀ spend ∈ spends, ¬ LoneAnnex spend.2 spend.1.scriptPubkey) →
          crate.TweakData inputs (secret • crate.generator)) ∧
      ((∃ spend ∈ spends, LoneAnnex spend.2 spend.1.scriptPubkey) →
        ¬ crate.TweakData inputs (secret • crate.generator)) := by
  constructor
  · exact tweakData_of_partialSecret sent signed hashApart reordered
  · rintro ⟨spend, member, lone⟩
    exact not_tweakData_of_lone (reordered.mem_iff.mpr member) lone _

end InputCrate

namespace SpKeysSample

open SpInputSample

/-- A crate whose public keys start with their point. -/
def inputCrate : InputCrate (ZMod 3) (ZMod 3) Unit where
  toXOnlyKeys := keys
  hash160 bytes := (bytes ++ List.replicate 20 0).take 20
  publicKey bytes :=
    if bytes.length = 33 then some (bytes.headD 0).toNat else none
  xOnlyKey _ := some ()
  generator := 1
  faithful := by decide
  serialize compressed point :=
    UInt8.ofNat point.val ::
      List.replicate (if compressed then 32 else 64) 0
  compressed_length := by decide
  uncompressed_length := by decide
  publicKey_serialize := by decide
  serializeX _ := List.replicate 32 7
  serializeX_length _ := rfl
  xOnlyKey_serializeX _ := rfl
  hash160_length bytes := by simp
  tapTweakHash _ _ := 0
  outpointBytes outpoint := [UInt8.ofNat outpoint.txid]
  inputsHash _ _ := 1

def ownKey : DescriptorKey (ZMod 3) where
  point := 1
  finite := by decide
  compressed := true
  masterFingerprint := 7
  fullDerivationPath := some [0]

/-- The seed behind it. -/
def xprivs : BTreeMap Nat (List Nat → Option (ZMod 3)) :=
  (∅ : BTreeMap Nat (List Nat → Option (ZMod 3))).insert 7
    (fun _ => some 1)

/-- A silent payment coin. -/
def spCoin : InputCoin (ZMod 3) (ZMod 3) where
  outpoint := ⟨2, 0⟩
  scriptPubkey := p2tr (inputCrate.serializeX ())
  spendInfo := .sp 1

/-- A coin of a witness key hash. -/
def wpkhCoin : InputCoin (ZMod 3) (ZMod 3) where
  outpoint := ⟨1, 0⟩
  scriptPubkey := inputCrate.scriptPubkey (.wpkh ownKey rfl)
  spendInfo := .bip32 (some (.wpkh ownKey rfl))

def signedSpends :
    List (InputCoin (ZMod 3) (ZMod 3) × FinalizedInput) :=
  [(spCoin, ⟨[], [List.replicate 64 1]⟩),
    (wpkhCoin, ⟨[], [[1], inputCrate.serialize true 1]⟩)]

theorem calculateInputHash_sample
    (first : OutPoint)
    (rest : List OutPoint)
    (aSum : ZMod 3) :
    inputCrate.calculateInputHash (first :: rest) aSum = .ok 1 := by
  unfold InputCrate.calculateInputHash
  cases smallest :
      (((first :: rest).map inputCrate.outpointBytes).mergeSort
        (fun first second => first ≤ second)).head? with
  | none =>
      have empty := congrArg List.length (List.head?_eq_none_iff.mp smallest)
      rw [List.length_mergeSort] at empty
      cases empty
  | some bytes =>
      rfl

theorem partialSecret_sample :
    inputCrate.partialSecret 1 xprivs (signedSpends.map Prod.fst) =
      .ok 2 := by
  have keys :
      (signedSpends.map Prod.fst).mapM
          (inputCrate.bip352InputKey 1 xprivs) =
        .ok [some (2, true), some (1, false)] := by
    decide +kernel
  have total :
      inputCrate.getASumSecretKeys [(2, true), (1, false)] = .ok 2 := by
    decide +kernel
  have calculated :
      inputCrate.calculatePartialSecret [(2, true), (1, false)]
          [⟨2, 0⟩, ⟨1, 0⟩] =
        .ok 2 := by
    unfold InputCrate.calculatePartialSecret
    rw [total, ok_bind, calculateInputHash_sample, ok_bind]
    rfl
  have eligible :
      [some ((2 : ZMod 3), true), some (1, false)].filterMap id =
        [(2, true), (1, false)] := rfl
  have outpoints :
      (signedSpends.map Prod.fst).map InputCoin.outpoint =
        [⟨2, 0⟩, ⟨1, 0⟩] := rfl
  unfold InputCrate.partialSecret
  rw [keys, ok_bind, eligible, outpoints, calculated]

theorem signed_sample
    (signature : Bytes)
    (length : signature.length = 64) :
    ∀ spend ∈
      [(spCoin, ⟨[], [signature]⟩),
        (wpkhCoin, ⟨[], [[1], inputCrate.serialize true 1]⟩)],
      inputCrate.Signed 1 spend ∧ inputCrate.HashApart spend := by
  intro spend member
  rcases List.mem_cons.mp member with rfl | member
  · refine ⟨.sp (.inl length) .absent, ?_⟩
    rintro key ⟨⟩
  · rcases List.mem_cons.mp member with rfl | impossible
    · refine ⟨.bip32 ?_, ?_⟩
      · rintro descriptor ⟨⟩
        exact .wpkh
      · rintro key ⟨⟩
    · cases impossible

/-- Signed inputs of both kinds, in the other order. -/
theorem partialSecret_matches_two :
    inputCrate.TweakData signedSpends.reverse
      ((2 : ZMod 3) • inputCrate.generator) := by
  refine (InputCrate.partialSecret_matches inputCrate 1 xprivs signedSpends
    signedSpends.reverse 2 partialSecret_sample
    (fun spend member => (signed_sample _ rfl spend member).1)
    (fun spend member => (signed_sample _ rfl spend member).2)
    (List.reverse_perm signedSpends)).1 ?_ ?_
  · intro spend member script bare
    rcases List.mem_cons.mp member with rfl | member
    · cases bare
    · rcases List.mem_cons.mp member with rfl | impossible
      · cases bare
      · cases impossible
  · intro spend member lone
    obtain ⟨-, rest, witness⟩ := lone
    rcases List.mem_cons.mp member with rfl | member
    · simp [List.replicate] at witness
    · rcases List.mem_cons.mp member with rfl | impossible
      · simp at witness
      · cases impossible

/-- The silent payment coin, signed by bytes that start like an annex. -/
def loneSpends : List (InputCoin (ZMod 3) (ZMod 3) × FinalizedInput) :=
  [(spCoin, ⟨[], [0x50 :: List.replicate 63 1]⟩),
    (wpkhCoin, ⟨[], [[1], inputCrate.serialize true 1]⟩)]

/-- The same coins, signed otherwise, leave the receiver without tweak data. -/
theorem lone_signature_unmatched :
    inputCrate.partialSecret 1 xprivs (loneSpends.map Prod.fst) = .ok 2 ∧
      (∀ spend ∈ loneSpends, inputCrate.Signed 1 spend) ∧
      (∀ spend ∈ loneSpends, inputCrate.HashApart spend) ∧
      ∀ tweak, ¬ inputCrate.TweakData loneSpends tweak :=
  ⟨partialSecret_sample,
    fun spend member => (signed_sample _ rfl spend member).1,
    fun spend member => (signed_sample _ rfl spend member).2,
    InputCrate.not_tweakData_of_lone List.mem_cons_self
      ⟨by decide, List.replicate 63 1, rfl⟩⟩

end SpKeysSample

end Bwk
