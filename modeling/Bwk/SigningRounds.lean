import Bwk.DerivationFilter

namespace Bwk.Hwi

/-!
# Rounds of filtered signing

A device that signs each input with the first derivation of its fingerprint
makes one signature an input and round.  Each round hides the keys that signed
and all but one path of every fingerprint, so the next key is first in the next
round.
-/

variable {Shared Fields : Type}

/-- The signatures a device makes: for which PSBT, input and key. -/
abbrev Signer (Shared Fields : Type) :=
  Psbt Shared Fields → Nat → SecpKey → EcdsaSignature

def Input.firstKey?
    (fingerprint : Fingerprint)
    (input : Input Fields) :
    Option SecpKey :=
  (input.bip32Derivation.toList.find? (fun entry =>
    entry.2.1 == fingerprint)).map Prod.fst

def Input.signFirst
    (fingerprint : Fingerprint)
    (sign : SecpKey → EcdsaSignature)
    (input : Input Fields) :
    Input Fields :=
  match input.firstKey? fingerprint with
  | some key =>
      { input with
        partialSigs := input.partialSigs.insert ⟨true, key⟩ (sign key) }
  | none => input

/-- A device that signs every input with the first derivation of its
fingerprint. -/
def signsFirst
    (fingerprint : Fingerprint)
    (sign : Signer Shared Fields) :
    SignTx Shared Fields :=
  fun psbt =>
    ({ psbt with
        inputs := psbt.inputs.mapIdx (fun index input =>
          input.signFirst fingerprint (sign psbt index)) },
      .ok ())

/-- What the device of a round is shown. -/
def shown (psbt : Psbt Shared Fields) : Bip32DerivationFilter Shared Fields :=
  (Bip32DerivationFilter.new psbt).ignoreSignedKeyDerivation
    |>.ignoreSameFgBip32Derivations

/-- A number of rounds, nothing when one of them panics or fails. -/
def rounds
    (signTx : SignTx Shared Fields) :
    Nat → Psbt Shared Fields → Option (Psbt Shared Fields)
  | 0, psbt => some psbt
  | count + 1, psbt =>
      match (shown psbt).signPsbt signTx with
      | some (signed, .ok ()) => rounds signTx count signed
      | _ => none

/-- The number of keys of a fingerprint an input lists. -/
def Input.keyCount
    (fingerprint : Fingerprint)
    (input : Input Fields) :
    Nat :=
  input.bip32Derivation.toList.countP (fun entry =>
    entry.2.1 == fingerprint)

/-- The largest number of keys of a fingerprint on one input. -/
def Psbt.mostKeys
    (fingerprint : Fingerprint)
    (psbt : Psbt Shared Fields) :
    Nat :=
  (psbt.inputs.map (Input.keyCount fingerprint)).foldr max 0

/-- No two derivations of one fingerprint have different paths. -/
def Input.OnePath (input : Input Fields) : Prop :=
  ∀ first ∈ input.bip32Derivation.toList,
    ∀ second ∈ input.bip32Derivation.toList,
      first.2.1 = second.2.1 → first.2.2 = second.2.2

def Input.SignedBy
    (fingerprint : Fingerprint)
    (input : Input Fields) : Prop :=
  ∀ key source,
    input.bip32Derivation[key]? = some source →
      source.1 = fingerprint → input.Signs key

variable {order : List KeySource} {fingerprint : Fingerprint}
variable {before after : Input Fields} {input : Input Fields} {key : SecpKey}
variable {source : KeySource}

theorem Input.signs_iff :
    input.Signs key ↔
      ∃ compressed, (⟨compressed, key⟩ : PublicKey) ∈ input.partialSigs := by
  rw [Input.Signs, Input.signers, List.mem_map]
  constructor
  · rintro ⟨⟨compressed, inner⟩, listed, rfl⟩
    exact ⟨compressed, Std.ExtTreeMap.mem_keys.mp listed⟩
  · rintro ⟨compressed, listed⟩
    exact ⟨_, Std.ExtTreeMap.mem_keys.mpr listed, rfl⟩

theorem Input.Adds.signs
    (adds : before.Adds after)
    (signed : before.Signs key) :
    after.Signs key := by
  obtain ⟨compressed, listed⟩ := Input.signs_iff.mp signed
  exact Input.signs_iff.mpr ⟨compressed, adds.partialSigs _ listed⟩

theorem Input.firstKey?_some
    (first : input.firstKey? fingerprint = some key) :
    ∃ source, input.bip32Derivation[key]? = some source ∧
      source.1 = fingerprint := by
  obtain ⟨⟨_, source⟩, found, rfl⟩ := Option.map_eq_some_iff.mp first
  refine ⟨source, ?_, ?_⟩
  · exact Std.ExtTreeMap.mem_toList_iff_getElem?_eq_some.mp
      (List.mem_of_find?_eq_some found)
  · simpa using List.find?_some found

theorem Input.firstKey?_isSome
    (listed : input.bip32Derivation[key]? = some source)
    (mine : source.1 = fingerprint) :
    (input.firstKey? fingerprint).isSome := by
  rw [Input.firstKey?, Option.isSome_map, List.find?_isSome]
  exact ⟨(key, source),
    Std.ExtTreeMap.mem_toList_iff_getElem?_eq_some.mpr listed,
    by simp [mine]⟩

theorem Input.adds_signFirst
    (fingerprint : Fingerprint)
    (sign : SecpKey → EcdsaSignature)
    (input : Input Fields) :
    input.Adds (input.signFirst fingerprint sign) := by
  cases first : input.firstKey? fingerprint with
  | none =>
      rw [Input.signFirst, first]
      exact Input.Adds.refl input
  | some key =>
      rw [Input.signFirst, first]
      exact {
        bip32Derivation := rfl
        finalScriptWitness := rfl
        fields := rfl
        partialSigs := fun other listed =>
          Std.ExtTreeMap.mem_insert.mpr (.inr listed)
        tapScriptSigs := fun _ listed => listed
        tapKeySig := id }

theorem Input.signs_signFirst
    (sign : SecpKey → EcdsaSignature)
    (first : input.firstKey? fingerprint = some key) :
    (input.signFirst fingerprint sign).Signs key := by
  rw [Input.signFirst, first]
  exact Input.signs_iff.mpr ⟨true, by simp⟩

theorem signsFirst_onlyAdds
    (fingerprint : Fingerprint)
    (sign : Signer Shared Fields) :
    OnlyAdds (signsFirst fingerprint sign) := by
  intro psbt
  refine Psbt.adds_of_index rfl (by simp [signsFirst]) ?_
  intro index input here
  refine ⟨input.signFirst fingerprint (sign psbt index), ?_,
    input.adds_signFirst fingerprint _⟩
  simp [signsFirst, here]

theorem precedes_iff
    {first second : KeySource}
    (firstListed : first ∈ order)
    (secondListed : second ∈ order) :
    precedes order first second = true ↔
      order.idxOf first < order.idxOf second := by
  obtain ⟨left, leftAt⟩ :=
    Option.isSome_iff_exists.mp (List.isSome_idxOf?.mpr firstListed)
  obtain ⟨right, rightAt⟩ :=
    Option.isSome_iff_exists.mp (List.isSome_idxOf?.mpr secondListed)
  have compared : compare (some left) (some right) = compare left right := rfl
  rw [precedes, List.idxOf_eq_getD_idxOf?, List.idxOf_eq_getD_idxOf?, leftAt,
    rightAt, compared, Ordering.isLT_iff_eq_lt, Nat.compare_eq_lt]
  rfl

theorem onePath_without_toRemove
    (order : List KeySource)
    (input : Input Fields) :
    (input.without (toRemove order input.bip32Derivation)).OnePath := by
  intro first firstListed second secondListed sameFingerprint
  have kept (entry : SecpKey × KeySource)
      (listed :
        entry ∈ (input.without
          (toRemove order input.bip32Derivation)).bip32Derivation.toList) :
      entry.1 ∉ toRemove order input.bip32Derivation ∧
        entry ∈ input.bip32Derivation.toList := by
    have found := Std.ExtTreeMap.mem_toList_iff_getElem?_eq_some.mp listed
    rw [Input.without, BTreeMap.getElem?_eraseAll] at found
    split at found
    · cases found
    · rename_i remains
      exact ⟨remains,
        Std.ExtTreeMap.mem_toList_iff_getElem?_eq_some.mpr found⟩
  obtain ⟨firstKept, firstHeld⟩ := kept first firstListed
  obtain ⟨secondKept, secondHeld⟩ := kept second secondListed
  by_contra otherPath
  cases ranked : precedes order first.2 second.2 with
  | false =>
      exact firstKept (toRemove_of_rivals firstHeld secondHeld
        sameFingerprint otherPath ranked)
  | true =>
      exact secondKept (toRemove_of_rivals secondHeld firstHeld
        sameFingerprint.symm (Ne.symm otherPath) (precedes_asymm ranked))

/-- An input that lists a fingerprint keeps a derivation of it: the one that
comes first in the order. -/
theorem survivor
    (ordered :
      ∀ entry ∈ input.bip32Derivation.toList, entry.2 ∈ order)
    (listed : input.bip32Derivation[key]? = some source)
    (mine : source.1 = fingerprint) :
    ∃ (key' : SecpKey) (source' : KeySource),
      (input.without
          (toRemove order input.bip32Derivation)).bip32Derivation[key']? =
        some source' ∧ source'.1 = fingerprint := by
  obtain ⟨least, ⟨leastListed, leastMine⟩, noneBelow⟩ :=
    (measure (fun entry : SecpKey × KeySource =>
      order.idxOf entry.2)).wf.has_min
      { entry | entry ∈ input.bip32Derivation.toList ∧
        entry.2.1 = fingerprint }
      ⟨(key, source),
        Std.ExtTreeMap.mem_toList_iff_getElem?_eq_some.mpr listed, mine⟩
  have lowest (entry : SecpKey × KeySource)
      (entryListed : entry ∈ input.bip32Derivation.toList)
      (entryMine : entry.2.1 = fingerprint) :
      order.idxOf least.2 ≤ order.idxOf entry.2 :=
    not_lt.mp (noneBelow entry ⟨entryListed, entryMine⟩)
  have leastFound :=
    Std.ExtTreeMap.mem_toList_iff_getElem?_eq_some.mp leastListed
  -- An entry of the same key is the least one.
  have sameEntry (entry : SecpKey × KeySource)
      (entryListed : entry ∈ input.bip32Derivation.toList)
      (sameKey : entry.1 = least.1) : entry = least := by
    have found :=
      Std.ExtTreeMap.mem_toList_iff_getElem?_eq_some.mp entryListed
    rw [sameKey, leastFound] at found
    exact Prod.ext sameKey (Option.some.inj found).symm
  have kept : least.1 ∉ toRemove order input.bip32Derivation := by
    intro removed
    obtain ⟨first, firstListed, member⟩ := List.mem_flatMap.mp removed
    obtain ⟨second, secondListed, chosen⟩ := List.mem_filterMap.mp member
    unfold outranked at chosen
    split at chosen
    · rename_i rivals
      split at chosen
      · rename_i ranked
        obtain rfl := sameEntry second secondListed (Option.some.inj chosen)
        have below := (precedes_iff (ordered first firstListed)
          (ordered second secondListed)).mp ranked
        have above := lowest first firstListed (rivals.1.trans leastMine)
        omega
      · rename_i unranked
        obtain rfl := sameEntry first firstListed (Option.some.inj chosen)
        have above := lowest second secondListed (rivals.1.symm.trans leastMine)
        have below := mt (precedes_iff (ordered first firstListed)
          (ordered second secondListed)).mpr unranked
        have samePlace : order.idxOf first.2 = order.idxOf second.2 := by
          omega
        have sameSource :=
          (List.idxOf_inj (ordered first firstListed)).mp samePlace
        exact rivals.2 (congrArg Prod.snd sameSource)
    · cases chosen
  refine ⟨least.1, least.2, ?_, leastMine⟩
  rw [Input.without, BTreeMap.getElem?_eraseAll, if_neg kept, leastFound]

theorem mem_priorityOrder
    {inputs : List (Input Fields)}
    (member : input ∈ inputs)
    {entry : SecpKey × KeySource}
    (listed : entry ∈ input.bip32Derivation.toList) :
    entry.2 ∈ priorityOrder inputs := by
  rw [priorityOrder, List.mem_mergeSort, List.mem_flatMap]
  exact ⟨input, member, List.mem_map.mpr ⟨entry, listed, rfl⟩⟩

theorem getElem?_shown
    {psbt : Psbt Shared Fields}
    {index : Nat}
    (here : psbt.inputs[index]? = some input) :
    ∃ order,
      (∀ entry ∈ (input.without input.signers).bip32Derivation.toList, entry.2 ∈ order) ∧
      (shown psbt).psbt.inputs[index]? = some
        ((input.without input.signers).without
          (toRemove order (input.without input.signers).bip32Derivation)) := by
  have unsignedHere :
      (Filtering.signedKeyDerivation.hide psbt).inputs[index]? = some
        (input.without input.signers) := by
    rw [Filtering.hide, Psbt.without, List.getElem?_map, here]
    rfl
  refine ⟨priorityOrder (Filtering.signedKeyDerivation.hide psbt).inputs,
    fun entry listed =>
      mem_priorityOrder (List.mem_of_getElem? unsignedHere) listed, ?_⟩
  have filtered :=
    psbt_filteredBy [.signedKeyDerivation, .sameFgBip32Derivations] psbt
  change (shown psbt).psbt = _ at filtered
  rw [filtered, List.foldl_cons, List.foldl_cons, List.foldl_nil,
    Filtering.hide, Psbt.without, List.getElem?_map, unsignedHere]
  rfl

theorem onePath_shown
    (psbt : Psbt Shared Fields)
    (member : input ∈ (shown psbt).psbt.inputs) :
    input.OnePath := by
  obtain ⟨index, bound, here⟩ := List.mem_iff_getElem.mp member
  have sameLength :=
    (filteredBy_holds [.signedKeyDerivation, .sameFgBip32Derivations]
      psbt).length
  change (shown psbt).psbt.inputs.length = _ at sameLength
  obtain ⟨order, -, shownHere⟩ :=
    getElem?_shown (List.getElem?_eq_getElem (sameLength ▸ bound))
  rw [List.getElem?_eq_getElem bound, here] at shownHere
  rw [Option.some.inj shownHere]
  exact onePath_without_toRemove order _

/-- A round succeeds and only adds signatures, one of them for a key of the
fingerprint that had none on every input that lists such a key. -/
theorem round_signs
    (fingerprint : Fingerprint)
    (sign : Signer Shared Fields)
    (psbt : Psbt Shared Fields) :
    ∃ next,
      (shown psbt).signPsbt (signsFirst fingerprint sign) =
          some (next, .ok ()) ∧
        psbt.Adds next ∧
        ∀ (index : Nat) (input : Input Fields),
          psbt.inputs[index]? = some input →
          ¬ input.SignedBy fingerprint →
          ∃ key source signed,
            input.bip32Derivation[key]? = some source ∧
              source.1 = fingerprint ∧
              ¬ input.Signs key ∧
              next.inputs[index]? = some signed ∧
              signed.Signs key := by
  obtain ⟨next, signs, adds, sameSignatures⟩ :=
    signPsbt_restores
      (filteredBy_holds [.signedKeyDerivation, .sameFgBip32Derivations] psbt)
      (signsFirst_onlyAdds fingerprint sign) rfl
  refine ⟨next, signs, adds, ?_⟩
  intro index input here unsigned
  have missing :
      ∃ key source, input.bip32Derivation[key]? = some source ∧
        source.1 = fingerprint ∧ ¬ input.Signs key := by
    by_contra none
    refine unsigned (fun key source listed mine => ?_)
    by_contra absent
    exact none ⟨key, source, listed, mine, absent⟩
  obtain ⟨key, source, listed, mine, absent⟩ := missing
  obtain ⟨order, ordered, shownHere⟩ := getElem?_shown here
  have unhidden :
      (input.without input.signers).bip32Derivation[key]? = some source := by
    rw [Input.without, BTreeMap.getElem?_eraseAll,
      if_neg (show key ∉ input.signers from absent), listed]
  obtain ⟨key', source', survives, mine'⟩ := survivor ordered unhidden mine
  obtain ⟨chosen, first⟩ :=
    Option.isSome_iff_exists.mp (Input.firstKey?_isSome survives mine')
  obtain ⟨chosenSource, chosenShown, chosenMine⟩ :=
    Input.firstKey?_some first
  -- The key that signs is listed by the input and had no signature.
  have chosenUnsigned :
      ¬ input.Signs chosen ∧
        input.bip32Derivation[chosen]? = some chosenSource := by
    rw [Input.without, BTreeMap.getElem?_eraseAll] at chosenShown
    split at chosenShown
    · cases chosenShown
    · rw [Input.without, BTreeMap.getElem?_eraseAll] at chosenShown
      split at chosenShown
      · cases chosenShown
      · rename_i noneOfItsForms
        exact ⟨noneOfItsForms, chosenShown⟩
  obtain ⟨signed, signedHere, -⟩ := adds.at_index here
  refine ⟨chosen, chosenSource, signed, chosenUnsigned.2, chosenMine,
    chosenUnsigned.1, signedHere, ?_⟩
  have atIndex := congrArg (fun signatures => signatures[index]?)
    sameSignatures
  change next.signatures[index]? =
    (signsFirst fingerprint sign (shown psbt).psbt).1.signatures[index]?
    at atIndex
  rw [Psbt.signatures, Psbt.signatures, List.getElem?_map, signedHere,
    List.getElem?_map, signsFirst, List.getElem?_mapIdx, shownHere] at atIndex
  have samePartial :
      signed.partialSigs = (Input.signFirst fingerprint
        (sign (shown psbt).psbt index) _).partialSigs :=
    congrArg Prod.fst (Option.some.inj atIndex)
  have deviceSigned :=
    Input.signs_signFirst (sign (shown psbt).psbt index) first
  rw [Input.signs_iff] at deviceSigned ⊢
  obtain ⟨compressed, present⟩ := deviceSigned
  exact ⟨compressed, by rw [samePartial]; exact present⟩

def Input.unsignedBy
    (fingerprint : Fingerprint)
    (input : Input Fields) :
    List (SecpKey × KeySource) :=
  input.bip32Derivation.toList.filter (fun entry =>
    entry.2.1 == fingerprint && !decide (input.Signs entry.1))

theorem Input.signedBy_of_none
    (none : (input.unsignedBy fingerprint).length = 0) :
    input.SignedBy fingerprint := by
  intro key source listed mine
  by_contra absent
  have member : (key, source) ∈ input.unsignedBy fingerprint :=
    List.mem_filter.mpr
      ⟨Std.ExtTreeMap.mem_toList_iff_getElem?_eq_some.mpr listed,
        by simp [mine, absent]⟩
  rw [List.length_eq_zero_iff.mp none] at member
  cases member

theorem Input.unsignedBy_le
    (fingerprint : Fingerprint)
    (input : Input Fields) :
    (input.unsignedBy fingerprint).length ≤ input.keyCount fingerprint := by
  rw [Input.unsignedBy, Input.keyCount, ← List.countP_eq_length_filter]
  exact List.countP_mono_left (fun entry _ counted =>
    (Bool.and_eq_true_iff.mp counted).1)

theorem Input.Adds.unsignedBy_lt
    (adds : before.Adds after)
    (listed : before.bip32Derivation[key]? = some source)
    (mine : source.1 = fingerprint)
    (unsigned : ¬ before.Signs key)
    (signed : after.Signs key) :
    (after.unsignedBy fingerprint).length <
      (before.unsignedBy fingerprint).length := by
  have narrowed :
      after.unsignedBy fingerprint =
        (before.unsignedBy fingerprint).filter (fun entry =>
          !decide (after.Signs entry.1)) := by
    rw [Input.unsignedBy, Input.unsignedBy, adds.bip32Derivation,
      List.filter_filter]
    refine List.filter_congr (fun entry _ => ?_)
    by_cases before' : before.Signs entry.1
    · simp [before', adds.signs before']
    · simp [before', Bool.and_comm]
  rw [narrowed, List.length_filter_lt_length_iff_exists]
  refine ⟨(key, source), List.mem_filter.mpr
    ⟨Std.ExtTreeMap.mem_toList_iff_getElem?_eq_some.mpr listed,
      by simp [mine, unsigned]⟩, by simp [signed]⟩

theorem Input.Adds.signedBy
    (adds : before.Adds after)
    (signed : before.SignedBy fingerprint) :
    after.SignedBy fingerprint := by
  intro key source listed mine
  rw [adds.bip32Derivation] at listed
  exact adds.signs (signed key source listed mine)

theorem rounds_sign
    (fingerprint : Fingerprint)
    (sign : Signer Shared Fields)
    (count : Nat)
    (psbt : Psbt Shared Fields) :
    ∃ final,
      rounds (signsFirst fingerprint sign) count psbt = some final ∧
        psbt.Adds final ∧
        ∀ (index : Nat) (input : Input Fields),
          psbt.inputs[index]? = some input →
          (input.unsignedBy fingerprint).length ≤ count →
          ∃ signed, final.inputs[index]? = some signed ∧
            signed.SignedBy fingerprint := by
  induction count generalizing psbt with
  | zero =>
      refine ⟨psbt, rfl, Psbt.Adds.refl psbt, ?_⟩
      intro index input here few
      exact ⟨input, here, Input.signedBy_of_none (Nat.le_zero.mp few)⟩
  | succ count inductionHypothesis =>
      obtain ⟨next, signs, added, oneMore⟩ :=
        round_signs fingerprint sign psbt
      obtain ⟨final, later, laterAdded, allSigned⟩ := inductionHypothesis next
      refine ⟨final, ?_, added.trans laterAdded, ?_⟩
      · rw [rounds, signs]
        exact later
      · intro index input here few
        by_cases already : input.SignedBy fingerprint
        · obtain ⟨middle, middleHere, middleAdds⟩ := added.at_index here
          obtain ⟨signed, signedHere, finalAdds⟩ :=
            laterAdded.at_index middleHere
          exact ⟨signed, signedHere,
            finalAdds.signedBy (middleAdds.signedBy already)⟩
        · obtain ⟨key, source, middle, listed, mine, unsigned, middleHere,
            signedNow⟩ := oneMore index input here already
          obtain ⟨same, sameHere, middleAdds⟩ := added.at_index here
          rw [middleHere] at sameHere
          cases sameHere
          have fewer :=
            middleAdds.unsignedBy_lt listed mine unsigned signedNow
          exact allSigned index middle middleHere (by omega)

theorem keyCount_le_mostKeys
    {psbt : Psbt Shared Fields}
    (member : input ∈ psbt.inputs) :
    input.keyCount fingerprint ≤ psbt.mostKeys fingerprint := by
  unfold Psbt.mostKeys
  generalize psbt.inputs = inputs at member ⊢
  induction inputs with
  | nil =>
      cases member
  | cons first rest inductionHypothesis =>
      rw [List.map_cons, List.foldr_cons]
      cases member with
      | head =>
          exact le_max_left _ _
      | tail _ later =>
          exact (inductionHypothesis later).trans (le_max_right _ _)

/--
Before each device call every input lists one path of each fingerprint, and
after as many rounds as the largest number of keys of the device's fingerprint
on one input, each of them has a partial signature on the input that lists it.
-/
theorem rounds_collect_signatures
    (fingerprint : Fingerprint)
    (sign : Signer Shared Fields)
    (psbt : Psbt Shared Fields) :
    (∀ count current,
      rounds (signsFirst fingerprint sign) count psbt = some current →
        ∀ input ∈ (shown current).psbt.inputs, input.OnePath) ∧
    ∃ final,
      rounds (signsFirst fingerprint sign) (psbt.mostKeys fingerprint) psbt =
          some final ∧
        psbt.Adds final ∧
        ∀ (index : Nat) (input : Input Fields),
          psbt.inputs[index]? = some input →
          ∃ signed, final.inputs[index]? = some signed ∧
            ∀ key source,
              input.bip32Derivation[key]? = some source →
                source.1 = fingerprint → signed.Signs key := by
  refine ⟨fun _ current _ _ member => onePath_shown current member, ?_⟩
  obtain ⟨final, reached, adds, allSigned⟩ :=
    rounds_sign fingerprint sign (psbt.mostKeys fingerprint) psbt
  refine ⟨final, reached, adds, ?_⟩
  intro index input here
  have few :
      (input.unsignedBy fingerprint).length ≤ psbt.mostKeys fingerprint :=
    (input.unsignedBy_le fingerprint).trans
      (keyCount_le_mostKeys (List.mem_of_getElem? here))
  obtain ⟨signed, signedHere, signedBy⟩ := allSigned index input here few
  obtain ⟨same, sameHere, finalAdds⟩ := adds.at_index here
  rw [signedHere] at sameHere
  cases sameHere
  refine ⟨signed, signedHere, fun key source listed mine => ?_⟩
  exact signedBy key source
    (by rw [finalAdds.bip32Derivation]; exact listed) mine

end Bwk.Hwi
