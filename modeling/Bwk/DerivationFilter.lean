import Bwk.HwiPsbt

namespace Bwk.Hwi

/-!
# Hiding derivations from a device

Bitbox and Coldcard sign with the first derivation of their fingerprint, so
`Bip32DerivationFilter` (`hwi/src/utils.rs`) takes derivations out of a PSBT
before a round of signing and puts them back after it.
-/

variable {Shared Fields : Type}

/-- A borrowed PSBT and the derivations taken out of each of its inputs. -/
structure Bip32DerivationFilter (Shared Fields : Type) where
  psbt : Psbt Shared Fields
  ignoredBip32Derivations : List (BTreeMap SecpKey KeySource)
  indexed : ignoredBip32Derivations.length = psbt.inputs.length

/-- The keys that have a partial signature, in any form. -/
def Input.signers (input : Input Fields) : List SecpKey :=
  input.partialSigs.keys.map PublicKey.inner

def Input.Signs (input : Input Fields) (key : SecpKey) : Prop :=
  key ∈ input.signers

instance (input : Input Fields) (key : SecpKey) :
    Decidable (input.Signs key) :=
  inferInstanceAs (Decidable (key ∈ input.signers))

/-- The order of `priority_order`: by fingerprint, higher paths first. -/
def compareSources (left right : KeySource) : Ordering :=
  match compare left.1 right.1 with
  | .lt => .lt
  | .gt => .gt
  | .eq => compare right.2 left.2

def priorityOrder (inputs : List (Input Fields)) : List KeySource :=
  (inputs.flatMap (fun input =>
    input.bip32Derivation.toList.map Prod.snd)).mergeSort
      (fun left right => (compareSources left right).isLE)

/-- Whether a derivation comes before another in the order. -/
def precedes (order : List KeySource) (first second : KeySource) : Bool :=
  (compare (order.idxOf? first) (order.idxOf? second)).isLT

/-- Of two derivations of one fingerprint with different paths, the key of the
one that comes later in the order. -/
def outranked
    (order : List KeySource)
    (first second : SecpKey × KeySource) :
    Option SecpKey :=
  if first.2.1 = second.2.1 ∧ first.2.2 ≠ second.2.2 then
    if precedes order first.2 second.2 then
      some second.1
    else
      some first.1
  else
    none

/-- `to_remove`: the later key of every two rivals. -/
def toRemove
    (order : List KeySource)
    (derivations : BTreeMap SecpKey KeySource) :
    List SecpKey :=
  derivations.toList.flatMap (fun first =>
    derivations.toList.filterMap (outranked order first))

namespace Bip32DerivationFilter

/-- `Bip32DerivationFilter::new`. -/
def new (psbt : Psbt Shared Fields) : Bip32DerivationFilter Shared Fields where
  psbt := psbt
  ignoredBip32Derivations := psbt.inputs.map (fun _ => ∅)
  indexed := by simp

def ignore
    (filter : Bip32DerivationFilter Shared Fields)
    (keysOf : Input Fields → List SecpKey) :
    Bip32DerivationFilter Shared Fields where
  psbt := {
    filter.psbt with
    inputs := List.zipWith
      (fun input ignored =>
        { input with
          bip32Derivation :=
            (BTreeMap.moveKeys (input.bip32Derivation, ignored)
              (keysOf input)).1 })
      filter.psbt.inputs filter.ignoredBip32Derivations }
  ignoredBip32Derivations := List.zipWith
    (fun input ignored =>
      (BTreeMap.moveKeys (input.bip32Derivation, ignored)
        (keysOf input)).2)
    filter.psbt.inputs filter.ignoredBip32Derivations
  indexed := by simp [filter.indexed]

/-- `Bip32DerivationFilter::ignore_signed_key_derivation`. -/
def ignoreSignedKeyDerivation
    (filter : Bip32DerivationFilter Shared Fields) :
    Bip32DerivationFilter Shared Fields :=
  filter.ignore Input.signers

/-- `Bip32DerivationFilter::ignore_same_fg_bip32_derivations`. -/
def ignoreSameFgBip32Derivations
    (filter : Bip32DerivationFilter Shared Fields) :
    Bip32DerivationFilter Shared Fields :=
  filter.ignore (fun input =>
    toRemove (priorityOrder filter.psbt.inputs) input.bip32Derivation)

def restored
    (input : Input Fields)
    (ignored : BTreeMap SecpKey KeySource) :
    Input Fields :=
  { input with
    bip32Derivation := BTreeMap.append input.bip32Derivation ignored }

/-- Put the ignored derivations back; an input the filter has no map for is an
index out of range. -/
def putBack
    (inputs : List (Input Fields))
    (ignored : List (BTreeMap SecpKey KeySource)) :
    Option (List (Input Fields)) :=
  if inputs.length ≤ ignored.length then
    some (List.zipWith restored inputs ignored)
  else
    none

/-- `Bip32DerivationFilter::sign_psbt`: the PSBT afterwards and the result,
nothing on a panic. -/
def signPsbt
    (filter : Bip32DerivationFilter Shared Fields)
    (signTx : SignTx Shared Fields) :
    Option (Psbt Shared Fields × Except HwiError Unit) :=
  match signTx filter.psbt with
  | (signed, .error cause) => some (signed, .error cause)
  | (signed, .ok ()) => do
      let inputs ← putBack signed.inputs filter.ignoredBip32Derivations
      some ({ signed with inputs := inputs }, .ok ())

end Bip32DerivationFilter

inductive Filtering where
  | signedKeyDerivation
  | sameFgBip32Derivations
  deriving Repr, DecidableEq

def Filtering.apply
    (filter : Bip32DerivationFilter Shared Fields) :
    Filtering → Bip32DerivationFilter Shared Fields
  | .signedKeyDerivation => filter.ignoreSignedKeyDerivation
  | .sameFgBip32Derivations => filter.ignoreSameFgBip32Derivations

/-- The filter after a chain of calls from `new`. -/
def filteredBy
    (filterings : List Filtering)
    (psbt : Psbt Shared Fields) :
    Bip32DerivationFilter Shared Fields :=
  filterings.foldl Filtering.apply (Bip32DerivationFilter.new psbt)

/-- Filter a PSBT, sign it and put the derivations back. -/
def signFiltered
    (signTx : SignTx Shared Fields)
    (filterings : List Filtering)
    (psbt : Psbt Shared Fields) :
    Option (Psbt Shared Fields × Except HwiError Unit) :=
  (filteredBy filterings psbt).signPsbt signTx

/-- A filter finds nothing to take out of a PSBT. -/
def Filtering.Idle (psbt : Psbt Shared Fields) : Filtering → Prop
  | .signedKeyDerivation =>
      ∀ input ∈ psbt.inputs, ∀ key ∈ input.bip32Derivation,
        ¬ input.Signs key
  | .sameFgBip32Derivations =>
      ∀ input ∈ psbt.inputs, ∀ first ∈ input.bip32Derivation.toList,
        ∀ second ∈ input.bip32Derivation.toList,
          first.2.1 = second.2.1 → first.2.2 = second.2.2

/-- The inputs of a PSBT, each split between the filter and its side table. -/
structure Bip32DerivationFilter.Holds
    (filter : Bip32DerivationFilter Shared Fields)
    (psbt : Psbt Shared Fields) : Prop where
  shared : filter.psbt.shared = psbt.shared
  length : filter.psbt.inputs.length = psbt.inputs.length
  split :
    ∀ (index : Nat) (input : Input Fields),
      psbt.inputs[index]? = some input →
      ∃ kept aside,
        filter.psbt.inputs[index]? =
          some { input with bip32Derivation := kept } ∧
        filter.ignoredBip32Derivations[index]? = some aside ∧
        BTreeMap.Splits input.bip32Derivation kept aside

theorem new_holds (psbt : Psbt Shared Fields) :
    (Bip32DerivationFilter.new psbt).Holds psbt where
  shared := rfl
  length := rfl
  split := by
    intro index input here
    refine ⟨input.bip32Derivation, ∅, here, ?_, BTreeMap.splits_self _⟩
    exact List.getElem?_map .. |>.trans (by rw [here]; rfl)

variable {filter : Bip32DerivationFilter Shared Fields}
variable (filterings : List Filtering) {order : List KeySource}
variable (psbt : Psbt Shared Fields)
variable {derivations : BTreeMap SecpKey KeySource} (filtering : Filtering)

theorem Bip32DerivationFilter.Holds.ignore
    {psbt : Psbt Shared Fields}
    (holds : filter.Holds psbt)
    (keysOf : Input Fields → List SecpKey) :
    (filter.ignore keysOf).Holds psbt where
  shared := holds.shared
  length := by
    simp [Bip32DerivationFilter.ignore, filter.indexed, holds.length]
  split := by
    intro index input here
    obtain ⟨kept, aside, listed, hidden, splits⟩ :=
      holds.split index input here
    have moved :=
      @BTreeMap.Splits.moveKeys _ _ _ _ _ _ _ (kept, aside) splits
        (keysOf { input with bip32Derivation := kept })
    refine ⟨_, _, ?_, ?_, moved⟩
    · simp [Bip32DerivationFilter.ignore, List.getElem?_zipWith, listed,
        hidden]
    · simp [Bip32DerivationFilter.ignore, List.getElem?_zipWith, listed,
        hidden]

theorem Bip32DerivationFilter.Holds.apply
    {psbt : Psbt Shared Fields}
    (holds : filter.Holds psbt)
    (filtering : Filtering) :
    (filtering.apply filter).Holds psbt := by
  cases filtering with
  | signedKeyDerivation =>
      exact holds.ignore _
  | sameFgBip32Derivations =>
      exact holds.ignore _

theorem filteredBy_holds :
    (filteredBy filterings psbt).Holds psbt := by
  have chain :
      ∀ filter : Bip32DerivationFilter Shared Fields,
        filter.Holds psbt →
          (filterings.foldl Filtering.apply filter).Holds psbt := by
    induction filterings with
    | nil =>
        intro filter holds
        exact holds
    | cons filtering rest inductionHypothesis =>
        intro filter holds
        exact inductionHypothesis _ (holds.apply filtering)
  exact chain _ (new_holds psbt)

def Input.without (input : Input Fields) (keys : List SecpKey) :
    Input Fields :=
  { input with
    bip32Derivation := BTreeMap.eraseAll input.bip32Derivation keys }

def Psbt.without
    (psbt : Psbt Shared Fields)
    (keysOf : Input Fields → List SecpKey) :
    Psbt Shared Fields :=
  { psbt with inputs := psbt.inputs.map (fun input =>
      input.without (keysOf input)) }

def Filtering.keysOf (psbt : Psbt Shared Fields) :
    Filtering → Input Fields → List SecpKey
  | .signedKeyDerivation, input => input.signers
  | .sameFgBip32Derivations, input =>
      toRemove (priorityOrder psbt.inputs) input.bip32Derivation

def Filtering.hide
    (psbt : Psbt Shared Fields)
    (filtering : Filtering) :
    Psbt Shared Fields :=
  psbt.without (filtering.keysOf psbt)

theorem psbt_ignore
    (filter : Bip32DerivationFilter Shared Fields)
    (keysOf : Input Fields → List SecpKey) :
    (filter.ignore keysOf).psbt = filter.psbt.without keysOf := by
  simp only [Bip32DerivationFilter.ignore, Psbt.without, Input.without,
    BTreeMap.fst_moveKeys]
  congr 1
  apply List.ext_getElem?
  intro index
  rw [List.getElem?_zipWith, List.getElem?_map]
  cases here : filter.psbt.inputs[index]? with
  | none =>
      rfl
  | some input =>
      obtain ⟨bound, -⟩ := List.getElem?_eq_some_iff.mp here
      rw [List.getElem?_eq_getElem (by rw [filter.indexed]; exact bound)]
      rfl

theorem psbt_apply
    (filter : Bip32DerivationFilter Shared Fields)
    (filtering : Filtering) :
    (filtering.apply filter).psbt = filtering.hide filter.psbt := by
  cases filtering with
  | signedKeyDerivation =>
      exact psbt_ignore ..
  | sameFgBip32Derivations =>
      exact psbt_ignore ..

theorem psbt_filteredBy :
    (filteredBy filterings psbt).psbt =
      filterings.foldl Filtering.hide psbt := by
  have chain :
      ∀ filter : Bip32DerivationFilter Shared Fields,
        (filterings.foldl Filtering.apply filter).psbt =
          filterings.foldl Filtering.hide filter.psbt := by
    induction filterings with
    | nil =>
        intro filter
        rfl
    | cons filtering rest inductionHypothesis =>
        intro filter
        rw [List.foldl_cons, List.foldl_cons, inductionHypothesis,
          psbt_apply]
  exact chain _

theorem mem_of_toRemove
    {key : SecpKey}
    (removed : key ∈ toRemove order derivations) :
    key ∈ derivations := by
  obtain ⟨first, firstListed, member⟩ := List.mem_flatMap.mp removed
  obtain ⟨second, secondListed, chosen⟩ := List.mem_filterMap.mp member
  have held (entry : SecpKey × KeySource)
      (listed : entry ∈ derivations.toList) : entry.1 ∈ derivations :=
    BTreeMap.mem_iff_getElem?.mpr
      ⟨entry.2, Std.ExtTreeMap.mem_toList_iff_getElem?_eq_some.mp listed⟩
  unfold outranked at chosen
  split at chosen
  · split at chosen
    · cases chosen
      exact held second secondListed
    · cases chosen
      exact held first firstListed
  · cases chosen

theorem toRemove_of_rivals
    {first second : SecpKey × KeySource}
    (firstListed : first ∈ derivations.toList)
    (secondListed : second ∈ derivations.toList)
    (sameFingerprint : first.2.1 = second.2.1)
    (otherPath : first.2.2 ≠ second.2.2)
    (notEarlier : precedes order first.2 second.2 = false) :
    first.1 ∈ toRemove order derivations := by
  refine List.mem_flatMap.mpr ⟨first, firstListed,
    List.mem_filterMap.mpr ⟨second, secondListed, ?_⟩⟩
  rw [outranked, if_pos ⟨sameFingerprint, otherPath⟩, notEarlier]
  rfl

theorem precedes_asymm
    {first second : KeySource}
    (earlier : precedes order first second = true) :
    precedes order second first = false := by
  unfold precedes at *
  rw [Std.OrientedOrd.eq_swap] at earlier ⊢
  cases found : compare (order.idxOf? first) (order.idxOf? second) with
  | lt =>
      rfl
  | eq =>
      rfl
  | gt =>
      rw [Std.OrientedOrd.eq_swap, found] at earlier
      cases earlier

theorem Psbt.without_eq_self_iff
    (keysOf : Input Fields → List SecpKey) :
    psbt.without keysOf = psbt ↔
      ∀ input ∈ psbt.inputs, ∀ key ∈ keysOf input,
        key ∉ input.bip32Derivation := by
  have pointwise :
      psbt.inputs.map (fun input => input.without (keysOf input)) =
          psbt.inputs ↔
        ∀ input ∈ psbt.inputs, input.without (keysOf input) = input := by
    conv_lhs => rhs; rw [← List.map_id psbt.inputs]
    exact List.map_inj_left
  constructor
  · intro same input listed
    have kept := pointwise.mp (congrArg Psbt.inputs same) input listed
    exact BTreeMap.eraseAll_eq_self_iff.mp
      (congrArg Input.bip32Derivation kept)
  · intro absent
    rw [Psbt.without, pointwise.mpr]
    intro input listed
    rw [Input.without,
      BTreeMap.eraseAll_eq_self_iff.mpr (absent input listed)]

theorem Filtering.hide_eq_self_iff :
    filtering.hide psbt = psbt ↔ filtering.Idle psbt := by
  rw [Filtering.hide, Psbt.without_eq_self_iff]
  cases filtering with
  | signedKeyDerivation =>
      constructor
      · intro absent input listed key held signed
        exact absent input listed key signed held
      · intro idle input listed key signed held
        exact idle input listed key held signed
  | sameFgBip32Derivations =>
      constructor
      · intro absent input listed first firstListed second secondListed
          sameFingerprint
        by_contra otherPath
        have removed :
            ∃ key, key ∈ toRemove (priorityOrder psbt.inputs)
              input.bip32Derivation := by
          cases ranked :
              precedes (priorityOrder psbt.inputs) first.2 second.2 with
          | false =>
              exact ⟨_, toRemove_of_rivals firstListed secondListed
                sameFingerprint otherPath ranked⟩
          | true =>
              exact ⟨_, toRemove_of_rivals secondListed firstListed
                sameFingerprint.symm (Ne.symm otherPath)
                (precedes_asymm ranked)⟩
        obtain ⟨key, removed⟩ := removed
        exact absent input listed key removed (mem_of_toRemove removed)
      · intro idle input listed key removed
        obtain ⟨first, firstListed, member⟩ := List.mem_flatMap.mp removed
        obtain ⟨second, secondListed, chosen⟩ :=
          List.mem_filterMap.mp member
        unfold outranked at chosen
        split at chosen
        · rename_i rivals
          exact absurd
            (idle input listed first firstListed second secondListed rivals.1)
            rivals.2
        · cases chosen

/-- Every key listed by the inputs of one PSBT is listed by those of another. -/
def Psbt.Within (left right : Psbt Shared Fields) : Prop :=
  List.Forall₂
    (fun first second : Input Fields =>
      ∀ key ∈ first.bip32Derivation, key ∈ second.bip32Derivation)
    left.inputs right.inputs

theorem within_hide :
    (filtering.hide psbt).Within psbt := by
  refine List.forall₂_map_left_iff.mpr
    (List.forall₂_same.mpr (fun input _ key held => ?_))
  exact (BTreeMap.mem_eraseAll.mp held).2

theorem Psbt.Within.trans
    {first second third : Psbt Shared Fields}
    (earlier : first.Within second)
    (later : second.Within third) :
    first.Within third := by
  unfold Psbt.Within at *
  generalize first.inputs = firsts at earlier
  generalize second.inputs = seconds at earlier later
  generalize third.inputs = thirds at later
  induction earlier generalizing thirds with
  | nil =>
      exact later
  | cons here _ inductionHypothesis =>
      cases later with
      | cons there rest =>
          exact .cons (fun key held => there key (here key held))
            (inductionHypothesis _ rest)

theorem within_foldl_hide :
    (filterings.foldl Filtering.hide psbt).Within psbt := by
  induction filterings generalizing psbt with
  | nil =>
      exact List.forall₂_same.mpr (fun _ _ _ held => held)
  | cons filtering rest inductionHypothesis =>
      exact (inductionHypothesis _).trans (within_hide psbt filtering)

theorem hide_eq_self_of_within
    {psbt : Psbt Shared Fields}
    {filtering : Filtering}
    (all : psbt.Within (filtering.hide psbt)) :
    filtering.hide psbt = psbt := by
  refine (psbt.without_eq_self_iff _).mpr
    (fun input listed key removed held => ?_)
  have kept :=
    List.forall₂_same.mp (List.forall₂_map_right_iff.mp all) input listed
  exact (BTreeMap.mem_eraseAll.mp (kept key held)).1 removed

/-- A chain of filterings takes nothing out exactly when each of its filters
has nothing to take. -/
theorem foldl_hide_eq_self_iff :
    filterings.foldl Filtering.hide psbt = psbt ↔
      ∀ filtering ∈ filterings, filtering.Idle psbt := by
  induction filterings with
  | nil =>
      simp
  | cons filtering rest inductionHypothesis =>
      rw [List.foldl_cons, List.forall_mem_cons,
        ← Filtering.hide_eq_self_iff, ← inductionHypothesis]
      constructor
      · intro same
        have first : filtering.hide psbt = psbt := by
          apply hide_eq_self_of_within
          have later := within_foldl_hide rest (filtering.hide psbt)
          rwa [same] at later
        exact ⟨first, by rwa [first] at same⟩
      · rintro ⟨first, later⟩
        rw [first, later]

theorem signPsbt_restores
    {psbt : Psbt Shared Fields}
    (holds : filter.Holds psbt)
    {signTx : SignTx Shared Fields}
    (adds : OnlyAdds signTx)
    (succeeds : (signTx filter.psbt).2 = .ok ()) :
    ∃ after,
      filter.signPsbt signTx = some (after, .ok ()) ∧
        psbt.Adds after ∧
        after.signatures = (signTx filter.psbt).1.signatures := by
  have added := adds filter.psbt
  cases answered : signTx filter.psbt with
  | mk signed result =>
      rw [answered] at added succeeds
      obtain rfl : result = .ok () := succeeds
      have signedLength :
          signed.inputs.length = filter.ignoredBip32Derivations.length := by
        rw [filter.indexed, added.inputs.length_eq]
      refine ⟨{ signed with
        inputs := List.zipWith Bip32DerivationFilter.restored signed.inputs
          filter.ignoredBip32Derivations }, ?_, ?_, ?_⟩
      · rw [Bip32DerivationFilter.signPsbt, answered]
        simp only [Bip32DerivationFilter.putBack,
          if_pos signedLength.le, Option.bind_eq_bind, Option.bind_some]
      · refine Psbt.adds_of_index (added.shared.trans holds.shared) ?_ ?_
        · simp [signedLength, filter.indexed, holds.length]
        · intro index input here
          obtain ⟨kept, aside, listed, hidden, splits⟩ :=
            holds.split index input here
          obtain ⟨signedInput, signedHere, inputAdded⟩ :=
            added.at_index listed
          refine ⟨Bip32DerivationFilter.restored signedInput aside,
            by simp [List.getElem?_zipWith, signedHere, hidden], ?_⟩
          exact {
            bip32Derivation := by
              rw [Bip32DerivationFilter.restored,
                inputAdded.bip32Derivation]
              exact splits.append_eq
            finalScriptWitness := inputAdded.finalScriptWitness
            fields := inputAdded.fields
            partialSigs := inputAdded.partialSigs
            tapScriptSigs := inputAdded.tapScriptSigs
            tapKeySig := inputAdded.tapKeySig }
      · rw [Psbt.signatures, Psbt.signatures, List.map_zipWith]
        apply List.ext_getElem?
        intro index
        rw [List.getElem?_zipWith, List.getElem?_map]
        cases signedHere : signed.inputs[index]? with
        | none =>
            rfl
        | some signedInput =>
            obtain ⟨bound, -⟩ := List.getElem?_eq_some_iff.mp signedHere
            rw [List.getElem?_eq_getElem (signedLength ▸ bound)]
            rfl

/-- A PSBT filtered to nothing else is the PSBT, when what it became only
gained signatures over both. -/
theorem eq_of_adds
    {psbt filtered after : Psbt Shared Fields}
    (sameShared : filtered.shared = psbt.shared)
    (sameLength : filtered.inputs.length = psbt.inputs.length)
    (listed :
      ∀ (index : Nat) (input : Input Fields),
        psbt.inputs[index]? = some input →
        ∃ kept, filtered.inputs[index]? =
          some { input with bip32Derivation := kept })
    (fromFiltered : filtered.Adds after)
    (fromWhole : psbt.Adds after) :
    filtered = psbt := by
  have sameInputs : filtered.inputs = psbt.inputs := by
    apply List.ext_getElem?
    intro index
    cases here : psbt.inputs[index]? with
    | none =>
        rw [List.getElem?_eq_none_iff] at here ⊢
        omega
    | some input =>
        obtain ⟨kept, keptHere⟩ := listed index input here
        obtain ⟨signed, signedHere, adds⟩ := fromFiltered.at_index keptHere
        obtain ⟨other, otherHere, wholeAdds⟩ := fromWhole.at_index here
        rw [signedHere] at otherHere
        cases otherHere
        have sameMap : kept = input.bip32Derivation :=
          adds.bip32Derivation.symm.trans wholeAdds.bip32Derivation
        rw [keptHere, sameMap]
  cases filtered
  cases psbt
  cases sameShared
  cases sameInputs
  rfl

/--
Filtering and signing with a device that only adds signatures never panics and
leaves the signatures the device made.  Everything else is as it was exactly
when the device succeeds on the filtered PSBT or no filter of the chain has
anything to take out: an error returns before the derivations are put back.
-/
theorem filter_undone_iff
    (signTx : SignTx Shared Fields)
    (adds : OnlyAdds signTx)
    (filterings : List Filtering)
    (psbt : Psbt Shared Fields) :
    ∃ after,
      signFiltered signTx filterings psbt =
          some (after, (signTx (filteredBy filterings psbt).psbt).2) ∧
        after.signatures =
          (signTx (filteredBy filterings psbt).psbt).1.signatures ∧
        (psbt.Adds after ↔
          (signTx (filteredBy filterings psbt).psbt).2 = .ok () ∨
            ∀ filtering ∈ filterings, filtering.Idle psbt) := by
  have holds := filteredBy_holds filterings psbt
  cases succeeds : (signTx (filteredBy filterings psbt).psbt).2 with
  | ok =>
      obtain ⟨after, signs, restored, sameSignatures⟩ :=
        signPsbt_restores holds adds succeeds
      exact ⟨after, signs, sameSignatures, fun _ => .inl rfl,
        fun _ => restored⟩
  | error cause =>
      refine ⟨(signTx (filteredBy filterings psbt).psbt).1, ?_, rfl, ?_⟩
      · rw [signFiltered, Bip32DerivationFilter.signPsbt]
        cases answered : signTx (filteredBy filterings psbt).psbt with
        | mk signed result =>
            rw [answered] at succeeds
            cases succeeds
            rfl
      · have added := adds (filteredBy filterings psbt).psbt
        rw [← foldl_hide_eq_self_iff, ← psbt_filteredBy]
        constructor
        · intro whole
          right
          refine eq_of_adds holds.shared holds.length ?_ added whole
          intro index input here
          obtain ⟨kept, -, keptHere, -⟩ := holds.split index input here
          exact ⟨kept, keptHere⟩
        · rintro (impossible | same)
          · cases impossible
          · rw [same] at added ⊢
            exact added

def refusing : SignTx Unit Unit :=
  fun psbt => (psbt, .error .userRefused)

/-- An input with one derivation, whose key signed already. -/
def signedInput : Input Unit where
  bip32Derivation := (∅ : BTreeMap SecpKey KeySource).insert 7 (1, [0, 0])
  partialSigs :=
    (∅ : BTreeMap PublicKey EcdsaSignature).insert ⟨true, 7⟩ [48]
  tapScriptSigs := ∅
  tapKeySig := none
  finalScriptWitness := none
  fields := ()

def signedPsbt : Psbt Unit Unit := ⟨(), [signedInput]⟩

theorem refusing_onlyAdds : OnlyAdds refusing :=
  fun psbt => Psbt.Adds.refl psbt

/-- A refused round leaves the PSBT without the derivation of the key that
signed. -/
theorem refused_round_strips :
    ∃ after,
      signFiltered refusing [.signedKeyDerivation] signedPsbt =
          some (after, .error .userRefused) ∧
        ¬ signedPsbt.Adds after := by
  refine ⟨_, rfl, fun adds => ?_⟩
  rw [psbt_filteredBy] at adds
  obtain ⟨after, here, added⟩ :=
    @Psbt.Adds.at_index _ _ _ _ adds 0 signedInput rfl
  have stripped :
      after = signedInput.without signedInput.signers :=
    (Option.some.inj here).symm
  have listed : (7 : SecpKey) ∈ signedInput.bip32Derivation := by
    decide +kernel
  rw [← added.bip32Derivation, stripped, Input.without,
    BTreeMap.mem_eraseAll] at listed
  exact listed.1 (by decide +kernel)

/-- The refused round, by its device and its filter. -/
theorem filter_undone_refused :
    ∃ after,
      signFiltered refusing [.signedKeyDerivation] signedPsbt =
          some (after, (refusing
            (filteredBy [.signedKeyDerivation] signedPsbt).psbt).2) ∧
        after.signatures =
          (refusing
            (filteredBy [.signedKeyDerivation] signedPsbt).psbt).1.signatures ∧
        (signedPsbt.Adds after ↔
          (refusing
              (filteredBy [.signedKeyDerivation] signedPsbt).psbt).2 =
              .ok () ∨
            ∀ filtering ∈ [Filtering.signedKeyDerivation],
              filtering.Idle signedPsbt) :=
  filter_undone_iff refusing refusing_onlyAdds [.signedKeyDerivation]
    signedPsbt

end Bwk.Hwi
