import Bwk.HwiPsbt

namespace Bwk.Hwi

/-!
# Taking the signatures out of a device's answer

Jade and Specter return a PSBT of their own.  `Jade::sign_tx` hands it to
`merge_signatures` (`hwi/src/utils.rs`), `Specter::sign_tx` has a loop of its
own that also reads a final witness and counts what it found.
-/

variable {Shared Fields : Type}

def mergeInput (input signed : Input Fields) : Input Fields :=
  { input with
    partialSigs := BTreeMap.append input.partialSigs signed.partialSigs
    tapScriptSigs := BTreeMap.append input.tapScriptSigs signed.tapScriptSigs
    tapKeySig := signed.tapKeySig.or input.tapKeySig }

/-- Merge each input with the returned one of its index, if there is one. -/
def mergeWith (merge : Input Fields → Input Fields → Input Fields) :
    List (Input Fields) → List (Input Fields) → List (Input Fields)
  | [], _ => []
  | inputs, [] => inputs
  | input :: inputs, signed :: rest =>
      merge input signed :: mergeWith merge inputs rest

/-- `merge_signatures`: indices only the returned PSBT has are skipped. -/
def mergeSignatures (psbt signed : Psbt Shared Fields) : Psbt Shared Fields :=
  { psbt with inputs := mergeWith mergeInput psbt.inputs signed.inputs }

/-- Why a request to a Jade failed. -/
inductive JadeError where
  | transport (text : String)
  | rpc (code : Int) (message : Option String) (data : Option Bytes)
  deriving Repr, DecidableEq

/-- `TransportError::NoErrorOrResult`. -/
def JadeError.noErrorOrResult : JadeError :=
  .transport "NoErrorOrResult"

/-- What a `JadeError` becomes for the caller. -/
def JadeError.toHwiError : JadeError → HwiError
  | .transport text => .device (.transport text)
  | .rpc code message data =>
      if code = -32000 then
        .userRefused
      else if code = -32003 then
        .networkMismatch
      else
        .device (.rpc code message data)

/-- `api::Response` of bytes. -/
structure JadeResponse where
  seqlen : Option UInt32
  seqnum : Option UInt32
  result : Option Bytes
  error : Option (Int × Option String × Option Bytes)
  deriving Repr, DecidableEq

def JadeResponse.bytes (response : JadeResponse) : Except JadeError Bytes :=
  match response.error, response.result with
  | some (code, message, data), _ => .error (.rpc code message data)
  | none, some bytes => .ok bytes
  | none, none => .error .noErrorOrResult

namespace Jade

/-- The requests for the rest of a long answer, against what the transport
gives for each; nothing when `seqnum + 1` overflows. -/
def extendedData :
    List (Except JadeError JadeResponse) →
    (seqlen seqnum : UInt32) →
    Bytes →
    Option (Except JadeError Bytes)
  | answers, seqlen, seqnum, psbtBytes =>
      if seqnum < seqlen then
        if seqnum.toNat + 1 < 2 ^ 32 then
          match answers with
          | [] => some (.error (.transport "closed"))
          | .error cause :: _ => some (.error cause)
          | .ok response :: later =>
              match response.bytes with
              | .error cause => some (.error cause)
              | .ok bytes =>
                  match response.seqlen, response.seqnum with
                  | some seqlen, some seqnum =>
                      extendedData later seqlen seqnum (psbtBytes ++ bytes)
                  | _, _ => some (.error .noErrorOrResult)
        else
          none
      else
        some (.ok psbtBytes)

def signedBytes :
    List (Except JadeError JadeResponse) → Option (Except JadeError Bytes)
  | [] => some (.error (.transport "closed"))
  | .error cause :: _ => some (.error cause)
  | .ok first :: later =>
      match first.bytes with
      | .error cause => some (.error cause)
      | .ok psbtBytes =>
          match first.seqlen, first.seqnum with
          | some seqlen, some seqnum =>
              if seqlen > 1 then
                extendedData later seqlen seqnum psbtBytes
              else
                some (.ok psbtBytes)
          | _, _ => some (.ok psbtBytes)

def returned
    (deserialize : Bytes → Except String (Psbt Shared Fields))
    (answers : List (Except JadeError JadeResponse)) :
    Option (Except HwiError (Psbt Shared Fields)) :=
  (signedBytes answers).map (fun
    | .error cause => .error cause.toHwiError
    | .ok psbtBytes =>
        match deserialize psbtBytes with
        | .error text => .error (.device (.psbt text))
        | .ok signed => .ok signed)

/-- `Jade::sign_tx`: the PSBT afterwards and the result, nothing on a
panic. -/
def signTx
    (deserialize : Bytes → Except String (Psbt Shared Fields))
    (answers : List (Except JadeError JadeResponse))
    (psbt : Psbt Shared Fields) :
    Option (Psbt Shared Fields × Except HwiError Unit) :=
  (returned deserialize answers).map (fun
    | .error cause => (psbt, .error cause)
    | .ok signed => (mergeSignatures psbt signed, .ok ()))

end Jade

/-- Why a request to a Specter failed. -/
inductive SpecterError where
  | deviceNotFound
  | deviceDidNotSign
  | device (text : String)
  | userCancelled
  deriving Repr, DecidableEq

/-- What a `SpecterError` becomes for the caller. -/
def SpecterError.toHwiError : SpecterError → HwiError
  | .deviceNotFound => .deviceNotFound
  | .deviceDidNotSign => .deviceDidNotSign
  | .device text => .device (.reported text)
  | .userCancelled => .userRefused

def Input.witnessSignature
    (fromSlice : Bytes → Option TaprootSignature)
    (signed : Input Fields) :
    Option TaprootSignature := do
  let witness ← signed.finalScriptWitness
  let first ← witness[0]?
  fromSlice first

/-- Whether the loop of `sign_tx` finds a signature in a returned input. -/
def Input.carriesSignature
    (fromSlice : Bytes → Option TaprootSignature)
    (signed : Input Fields) : Bool :=
  !signed.partialSigs.isEmpty || !signed.tapScriptSigs.isEmpty ||
    signed.tapKeySig.isSome || (signed.witnessSignature fromSlice).isSome

namespace Specter

/-- `Specter::sign`. -/
def returned
    (fromStr : String → Except String (Psbt Shared Fields))
    (answer : Except SpecterError String) :
    Except HwiError (Psbt Shared Fields) :=
  match answer with
  | .error cause => .error cause.toHwiError
  | .ok response =>
      if response = "error: User cancelled" then
        .error SpecterError.userCancelled.toHwiError
      else
        match fromStr response with
        | .error text => .error (SpecterError.device text).toHwiError
        | .ok signed => .ok signed

def appendInput
    (fromSlice : Bytes → Option TaprootSignature)
    (input signed : Input Fields) : Input Fields :=
  { input with
    partialSigs :=
      if signed.partialSigs.isEmpty then
        input.partialSigs
      else
        BTreeMap.append input.partialSigs signed.partialSigs
    tapScriptSigs :=
      if signed.tapScriptSigs.isEmpty then
        input.tapScriptSigs
      else
        BTreeMap.append input.tapScriptSigs signed.tapScriptSigs
    tapKeySig :=
      match signed.tapKeySig with
      | some signature => some signature
      | none =>
          match signed.witnessSignature fromSlice with
          | some signature => some signature
          | none => input.tapKeySig }

/-- The loop over the returned inputs: the inputs afterwards and whether a
signature was found.  A returned input is only indexed into the caller's PSBT
when it carries a signature, and then an index out of range panics. -/
def appendInputs (fromSlice : Bytes → Option TaprootSignature) :
    List (Input Fields) →
    List (Input Fields) →
    Option (List (Input Fields) × Bool)
  | inputs, [] => some (inputs, false)
  | [], signed :: rest =>
      if signed.carriesSignature fromSlice then
        none
      else
        appendInputs fromSlice [] rest
  | input :: inputs, signed :: rest => do
      let (appended, hasSigned) ← appendInputs fromSlice inputs rest
      some (appendInput fromSlice input signed :: appended,
        signed.carriesSignature fromSlice || hasSigned)

/-- `Specter::sign_tx`: the PSBT afterwards and the result, nothing on a
panic. -/
def signTx
    (fromSlice : Bytes → Option TaprootSignature)
    (fromStr : String → Except String (Psbt Shared Fields))
    (answer : Except SpecterError String)
    (psbt : Psbt Shared Fields) :
    Option (Psbt Shared Fields × Except HwiError Unit) :=
  match returned fromStr answer with
  | .error cause => some (psbt, .error cause)
  | .ok signed => do
      let (inputs, hasSigned) ←
        appendInputs fromSlice psbt.inputs signed.inputs
      some ({ psbt with inputs := inputs },
        if hasSigned then
          .ok ()
        else
          .error SpecterError.deviceDidNotSign.toHwiError)

end Specter

structure Input.Carried (signed after : Input Fields) : Prop where
  partialSigs :
    ∀ (key : PublicKey) (signature : EcdsaSignature),
      signed.partialSigs[key]? = some signature →
        after.partialSigs[key]? = some signature
  tapScriptSigs :
    ∀ (key : TapScriptKey) (signature : TaprootSignature),
      signed.tapScriptSigs[key]? = some signature →
        after.tapScriptSigs[key]? = some signature
  tapKeySig :
    ∀ signature,
      signed.tapKeySig = some signature → after.tapKeySig = some signature

/--
`sign_tx` did not panic and only added signatures: with an error none, and
otherwise all that the device returned for an input there is.
-/
def Merges
    (psbt : Psbt Shared Fields)
    (answer : Except HwiError (Psbt Shared Fields))
    (outcome : Option (Psbt Shared Fields × Except HwiError Unit)) : Prop :=
  ∃ after result,
    outcome = some (after, result) ∧
      psbt.Adds after ∧
      (∀ cause, result = .error cause → after = psbt) ∧
      ∀ signed, answer = .ok signed →
        ∀ (index : Nat) (input before : Input Fields),
          signed.inputs[index]? = some input →
          psbt.inputs[index]? = some before →
          ∃ now, after.inputs[index]? = some now ∧ input.Carried now

theorem append_of_isEmpty
    {Key Value : Type} [Ord Key] [Std.TransOrd Key] [Std.LawfulEqOrd Key]
    [DecidableEq Key]
    {other : BTreeMap Key Value}
    (empty : other.isEmpty = true)
    (map : BTreeMap Key Value) :
    BTreeMap.append map other = map := by
  obtain rfl := Std.ExtTreeMap.isEmpty_iff.mp empty
  apply Std.ExtTreeMap.ext_getElem?
  intro key
  simp

theorem mem_append
    {Key Value : Type} [Ord Key] [Std.TransOrd Key] [Std.LawfulEqOrd Key]
    [DecidableEq Key]
    {map other : BTreeMap Key Value}
    {key : Key}
    (member : key ∈ map) :
    key ∈ BTreeMap.append map other := by
  obtain ⟨value, present⟩ := BTreeMap.mem_iff_getElem?.mp member
  rw [BTreeMap.mem_iff_getElem?, BTreeMap.getElem?_append, present]
  cases other[key]? with
  | none =>
      exact ⟨value, rfl⟩
  | some newer =>
      exact ⟨newer, rfl⟩

theorem adds_mergeInput (input signed : Input Fields) :
    input.Adds (mergeInput input signed) where
  bip32Derivation := rfl
  finalScriptWitness := rfl
  fields := rfl
  partialSigs := fun _ member => mem_append member
  tapScriptSigs := fun _ member => mem_append member
  tapKeySig := by
    intro signed'
    cases found : signed.tapKeySig with
    | none =>
        simpa [mergeInput, found] using signed'
    | some signature =>
        simp [mergeInput, found]

theorem carried_mergeInput (input signed : Input Fields) :
    signed.Carried (mergeInput input signed) where
  partialSigs := by
    intro key signature present
    rw [mergeInput, BTreeMap.getElem?_append, present]
    rfl
  tapScriptSigs := by
    intro key signature present
    rw [mergeInput, BTreeMap.getElem?_append, present]
    rfl
  tapKeySig := by
    intro signature present
    rw [mergeInput, present]
    rfl

variable (fromSlice : Bytes → Option TaprootSignature)
variable {merge : Input Fields → Input Fields → Input Fields}
variable {deserialize : Bytes → Except String (Psbt Shared Fields)}
variable {index : Nat}

/-- The loop of Specter does what `merge_signatures` does, up to the final
witness. -/
theorem appendInput_eq
    (input signed : Input Fields) :
    Specter.appendInput fromSlice input signed =
      { mergeInput input signed with
        tapKeySig := (signed.tapKeySig.or
          (signed.witnessSignature fromSlice)).or input.tapKeySig } := by
  have samePartial :
      (if signed.partialSigs.isEmpty then
          input.partialSigs
        else
          BTreeMap.append input.partialSigs signed.partialSigs) =
        BTreeMap.append input.partialSigs signed.partialSigs := by
    split
    · rename_i empty
      rw [append_of_isEmpty empty]
    · rfl
  have sameScripts :
      (if signed.tapScriptSigs.isEmpty then
          input.tapScriptSigs
        else
          BTreeMap.append input.tapScriptSigs signed.tapScriptSigs) =
        BTreeMap.append input.tapScriptSigs signed.tapScriptSigs := by
    split
    · rename_i empty
      rw [append_of_isEmpty empty]
    · rfl
  rw [Specter.appendInput, samePartial, sameScripts, mergeInput]
  cases signed.tapKeySig with
  | none =>
      cases signed.witnessSignature fromSlice with
      | none =>
          rfl
      | some signature =>
          rfl
  | some signature =>
      rfl

theorem adds_appendInput
    (input signed : Input Fields) :
    input.Adds (Specter.appendInput fromSlice input signed) := by
  rw [appendInput_eq]
  exact {
    adds_mergeInput input signed with
    tapKeySig := by
      intro present
      cases signed.tapKeySig.or (signed.witnessSignature fromSlice) with
      | none =>
          simpa using present
      | some signature =>
          rfl }

theorem carried_appendInput
    (input signed : Input Fields) :
    signed.Carried (Specter.appendInput fromSlice input signed) := by
  rw [appendInput_eq]
  exact {
    carried_mergeInput input signed with
    tapKeySig := by
      intro signature present
      rw [present]
      rfl }

theorem appendInput_of_bare
    {fromSlice : Bytes → Option TaprootSignature}
    {signed : Input Fields}
    (bare : signed.carriesSignature fromSlice = false)
    (input : Input Fields) :
    Specter.appendInput fromSlice input signed = input := by
  simp only [Input.carriesSignature, Bool.or_eq_false_iff,
    Bool.not_eq_false', Option.isSome_eq_false_iff,
    Option.isNone_iff_eq_none] at bare
  obtain ⟨⟨⟨noPartial, noScripts⟩, noKey⟩, noWitness⟩ := bare
  rw [appendInput_eq, mergeInput, append_of_isEmpty noPartial,
    append_of_isEmpty noScripts, noKey, noWitness]
  rfl

theorem length_mergeWith
    (merge : Input Fields → Input Fields → Input Fields)
    (inputs signed : List (Input Fields)) :
    (mergeWith merge inputs signed).length = inputs.length := by
  induction inputs generalizing signed with
  | nil =>
      rfl
  | cons input inputs inductionHypothesis =>
      cases signed with
      | nil =>
          rfl
      | cons first rest =>
          simp [mergeWith, inductionHypothesis]

theorem getElem?_mergeWith
    (merge : Input Fields → Input Fields → Input Fields)
    (inputs signed : List (Input Fields))
    {input : Input Fields}
    (here : inputs[index]? = some input) :
    (mergeWith merge inputs signed)[index]? =
      some (match signed[index]? with
        | some returned => merge input returned
        | none => input) := by
  induction inputs generalizing signed index with
  | nil =>
      simp at here
  | cons first inputs inductionHypothesis =>
      cases signed with
      | nil =>
          simpa [mergeWith] using here
      | cons returned rest =>
          cases index with
          | zero =>
              simp at here
              simp [mergeWith, here]
          | succ index =>
              simpa [mergeWith] using inductionHypothesis rest here

/-- A merge that only adds signatures to each input only adds signatures. -/
theorem adds_mergeWith
    (adds : ∀ input signed : Input Fields, input.Adds (merge input signed))
    (psbt : Psbt Shared Fields)
    (signed : List (Input Fields)) :
    psbt.Adds { psbt with inputs := mergeWith merge psbt.inputs signed } := by
  refine Psbt.adds_of_index rfl (length_mergeWith ..) ?_
  intro index input here
  refine ⟨_, getElem?_mergeWith merge psbt.inputs signed here, ?_⟩
  cases signed[index]? with
  | none =>
      exact Input.Adds.refl input
  | some returned =>
      exact adds input returned

theorem carried_mergeWith
    (carried :
      ∀ input signed : Input Fields, signed.Carried (merge input signed))
    {inputs signed : List (Input Fields)}
    {input before : Input Fields}
    (returned : signed[index]? = some input)
    (here : inputs[index]? = some before) :
    ∃ now, (mergeWith merge inputs signed)[index]? = some now ∧
      input.Carried now := by
  refine ⟨_, getElem?_mergeWith merge inputs signed here, ?_⟩
  rw [returned]
  exact carried before input

theorem mergeWith_eq_self
    {signed : List (Input Fields)}
    (still : ∀ returned ∈ signed, ∀ input, merge input returned = input)
    (inputs : List (Input Fields)) :
    mergeWith merge inputs signed = inputs := by
  induction inputs generalizing signed with
  | nil =>
      rfl
  | cons input inputs inductionHypothesis =>
      cases signed with
      | nil =>
          rfl
      | cons first rest =>
          rw [mergeWith, still first (by simp) input,
            inductionHypothesis (fun returned member =>
              still returned (by simp [member]))]

theorem mergeWith_congr
    {first second : Input Fields → Input Fields → Input Fields}
    {signed : List (Input Fields)}
    (agree :
      ∀ returned ∈ signed, ∀ input,
        first input returned = second input returned)
    (inputs : List (Input Fields)) :
    mergeWith first inputs signed = mergeWith second inputs signed := by
  induction inputs generalizing signed with
  | nil =>
      rfl
  | cons input inputs inductionHypothesis =>
      cases signed with
      | nil =>
          rfl
      | cons returned rest =>
          rw [mergeWith, mergeWith, agree returned (by simp) input,
            inductionHypothesis (fun later member =>
              agree later (by simp [member]))]

/-- The loop of Specter panics exactly when a returned input beyond the
caller's carries a signature, and merges the inputs otherwise. -/
theorem appendInputs_eq
    (inputs signed : List (Input Fields)) :
    Specter.appendInputs fromSlice inputs signed =
      if (signed.drop inputs.length).any
          (Input.carriesSignature fromSlice) then
        none
      else
        some (mergeWith (Specter.appendInput fromSlice) inputs signed,
          signed.any (Input.carriesSignature fromSlice)) := by
  induction signed generalizing inputs with
  | nil =>
      cases inputs with
      | nil =>
          rfl
      | cons input inputs =>
          rfl
  | cons first rest inductionHypothesis =>
      cases inputs with
      | nil =>
          rw [Specter.appendInputs, List.length_nil, List.drop_zero,
            List.any_cons]
          cases carries : first.carriesSignature fromSlice with
          | true =>
              rfl
          | false =>
              rw [inductionHypothesis []]
              rfl
      | cons input inputs =>
          rw [Specter.appendInputs, inductionHypothesis inputs,
            List.length_cons, List.drop_succ_cons]
          split
          · rfl
          · rfl

theorem extendedData_isSome
    (answers : List (Except JadeError JadeResponse))
    (seqlen seqnum : UInt32)
    (psbtBytes : Bytes) :
    (Jade.extendedData answers seqlen seqnum psbtBytes).isSome := by
  induction answers generalizing seqlen seqnum psbtBytes with
  | nil =>
      unfold Jade.extendedData
      split
      · rename_i below
        have bounded := UInt32.lt_iff_toNat_lt.mp below
        have fits := seqlen.toNat_lt
        rw [if_pos (by omega)]
        rfl
      · rfl
  | cons answer later inductionHypothesis =>
      unfold Jade.extendedData
      split
      · rename_i below
        have bounded := UInt32.lt_iff_toNat_lt.mp below
        have fits := seqlen.toNat_lt
        rw [if_pos (by omega)]
        cases answer with
        | error cause =>
            rfl
        | ok response =>
            dsimp only
            cases response.bytes with
            | error cause =>
                rfl
            | ok bytes =>
                dsimp only
                split
                · exact inductionHypothesis ..
                · rfl
      · rfl

theorem returned_isSome
    (deserialize : Bytes → Except String (Psbt Shared Fields))
    (answers : List (Except JadeError JadeResponse)) :
    ∃ answer, Jade.returned deserialize answers = some answer := by
  rw [← Option.isSome_iff_exists, Jade.returned, Option.isSome_map]
  unfold Jade.signedBytes
  split
  · rfl
  · rfl
  · split
    · rfl
    · split
      · split
        · exact extendedData_isSome ..
        · rfl
      · rfl

theorem jade_merges
    {answers : List (Except JadeError JadeResponse)}
    {answer : Except HwiError (Psbt Shared Fields)}
    (returned : Jade.returned deserialize answers = some answer)
    (psbt : Psbt Shared Fields) :
    Merges psbt answer (Jade.signTx deserialize answers psbt) := by
  rw [Jade.signTx, returned]
  cases answer with
  | error cause =>
      refine ⟨psbt, .error cause, rfl, Psbt.Adds.refl psbt,
        fun _ _ => rfl, ?_⟩
      intro signed impossible
      cases impossible
  | ok signed =>
      refine ⟨mergeSignatures psbt signed, .ok (), rfl,
        adds_mergeWith adds_mergeInput psbt signed.inputs, ?_, ?_⟩
      · intro cause impossible
        cases impossible
      · intro same answered index input before there here
        cases answered
        exact carried_mergeWith carried_mergeInput there here

/-- `sign_tx` of a Specter only adds the signatures it returned, exactly when
it does not panic. -/
theorem specter_merges_iff
    (fromStr : String → Except String (Psbt Shared Fields))
    (reply : Except SpecterError String)
    (psbt : Psbt Shared Fields) :
    Merges psbt (Specter.returned fromStr reply)
        (Specter.signTx fromSlice fromStr reply psbt) ↔
      ∀ signed, Specter.returned fromStr reply = .ok signed →
        ∀ input ∈ signed.inputs.drop psbt.inputs.length,
          input.carriesSignature fromSlice = false := by
  cases answered : Specter.returned fromStr reply with
  | error cause =>
      constructor
      · intro _ signed impossible
        cases impossible
      · intro _
        refine ⟨psbt, .error cause, by rw [Specter.signTx, answered],
          Psbt.Adds.refl psbt, fun _ _ => rfl, ?_⟩
        intro signed impossible
        cases impossible
  | ok signed =>
      have signs :
          Specter.signTx fromSlice fromStr reply psbt =
            (Specter.appendInputs fromSlice psbt.inputs signed.inputs).map
              (fun appended =>
                ({ psbt with inputs := appended.1 },
                  if appended.2 then
                    .ok ()
                  else
                    .error SpecterError.deviceDidNotSign.toHwiError)) := by
        rw [Specter.signTx, answered]
        dsimp only
        cases Specter.appendInputs fromSlice psbt.inputs signed.inputs with
        | none =>
            rfl
        | some appended =>
            rfl
      rw [appendInputs_eq] at signs
      constructor
      · rintro ⟨after, result, returns, -⟩ same answered input beyond
        cases answered
        by_contra carries
        have found :
            (signed.inputs.drop psbt.inputs.length).any
              (Input.carriesSignature fromSlice) = true :=
          List.any_eq_true.mpr ⟨input, beyond, by simpa using carries⟩
        rw [if_pos found, returns] at signs
        cases signs
      · intro bare
        have noneFound :
            ¬ (signed.inputs.drop psbt.inputs.length).any
              (Input.carriesSignature fromSlice) = true := by
          intro found
          obtain ⟨input, beyond, carries⟩ := List.any_eq_true.mp found
          rw [bare signed rfl input beyond] at carries
          cases carries
        rw [if_neg noneFound] at signs
        refine ⟨_, _, signs,
          adds_mergeWith (adds_appendInput fromSlice) psbt signed.inputs,
          ?_, ?_⟩
        · intro cause failed
          -- Without a signature each returned input changes nothing.
          have nothing :
              signed.inputs.any (Input.carriesSignature fromSlice) =
                false := by
            by_contra some
            rw [Bool.not_eq_false] at some
            rw [some] at failed
            cases failed
          rw [mergeWith_eq_self (fun input member =>
            appendInput_of_bare (by
              simpa using List.any_eq_false.mp nothing input member))]
        · intro same answered index input before there here
          cases answered
          exact carried_mergeWith (carried_appendInput fromSlice) there here

theorem specter_agrees
    {fromSlice : Bytes → Option TaprootSignature}
    {fromStr : String → Except String (Psbt Shared Fields)}
    {answers : List (Except JadeError JadeResponse)}
    {reply : Except SpecterError String}
    {psbt signed : Psbt Shared Fields}
    (fromJade : Jade.returned deserialize answers = some (.ok signed))
    (fromSpecter : Specter.returned fromStr reply = .ok signed)
    (few : signed.inputs.length ≤ psbt.inputs.length)
    (noWitness :
      ∀ input ∈ signed.inputs, input.finalScriptWitness = none) :
    (Jade.signTx deserialize answers psbt).map Prod.fst =
      (Specter.signTx fromSlice fromStr reply psbt).map Prod.fst := by
  have noneBeyond : signed.inputs.drop psbt.inputs.length = [] :=
    List.drop_eq_nil_iff.mpr few
  have sameMerge :
      ∀ returned ∈ signed.inputs, ∀ input,
        Specter.appendInput fromSlice input returned =
          mergeInput input returned := by
    intro returned member input
    have noSignature : returned.witnessSignature fromSlice = none := by
      rw [Input.witnessSignature, noWitness returned member]
      rfl
    rw [appendInput_eq, noSignature, Option.or_none]
    rfl
  rw [Jade.signTx, fromJade, Specter.signTx, fromSpecter]
  dsimp only
  rw [appendInputs_eq, noneBeyond, mergeWith_congr sameMerge]
  rfl

/--
Both devices return without a panic, add the signatures they received and
nothing else, leave the PSBT alone on an error, and agree on an answer that is
not longer than the PSBT and has no final witness, exactly when no input the
Specter returns beyond the caller's carries a signature.
-/
theorem devices_merge_iff
    (fromSlice : Bytes → Option TaprootSignature)
    (deserialize : Bytes → Except String (Psbt Shared Fields))
    (fromStr : String → Except String (Psbt Shared Fields))
    (answers : List (Except JadeError JadeResponse))
    (reply : Except SpecterError String)
    (psbt : Psbt Shared Fields) :
    (∃ answer, Jade.returned deserialize answers = some answer ∧
        Merges psbt answer (Jade.signTx deserialize answers psbt) ∧
        Merges psbt (Specter.returned fromStr reply)
          (Specter.signTx fromSlice fromStr reply psbt) ∧
        ∀ signed, answer = .ok signed →
          Specter.returned fromStr reply = .ok signed →
          signed.inputs.length ≤ psbt.inputs.length →
          (∀ input ∈ signed.inputs, input.finalScriptWitness = none) →
          (Jade.signTx deserialize answers psbt).map Prod.fst =
            (Specter.signTx fromSlice fromStr reply psbt).map Prod.fst) ↔
      ∀ signed, Specter.returned fromStr reply = .ok signed →
        ∀ input ∈ signed.inputs.drop psbt.inputs.length,
          input.carriesSignature fromSlice = false := by
  rw [← specter_merges_iff fromSlice fromStr reply psbt]
  constructor
  · rintro ⟨answer, -, -, merges, -⟩
    exact merges
  · intro merges
    obtain ⟨answer, returned⟩ := returned_isSome deserialize answers
    refine ⟨answer, returned, jade_merges returned psbt, merges, ?_⟩
    intro signed answered
    cases answered
    exact specter_agrees returned

def partlySigned : Input Unit where
  bip32Derivation := ∅
  partialSigs :=
    (∅ : BTreeMap PublicKey EcdsaSignature).insert ⟨true, 7⟩ [48]
  tapScriptSigs := ∅
  tapKeySig := none
  finalScriptWitness := none
  fields := ()

/-- What a Specter answers for it: two inputs that signed. -/
def longAnswer : String → Except String (Psbt Unit Unit) :=
  fun _ => .ok ⟨(), [partlySigned, partlySigned]⟩

/-- The answer makes `sign_tx` panic. -/
theorem long_answer_panics :
    Specter.signTx (fun _ => none) longAnswer (.ok "")
        ⟨(), [partlySigned]⟩ = none ∧
      ¬ Merges ⟨(), [partlySigned]⟩
        (Specter.returned longAnswer (.ok ""))
        (Specter.signTx (fun _ => none) longAnswer (.ok "")
          ⟨(), [partlySigned]⟩) := by
  have panics :
      Specter.signTx (fun _ => none) longAnswer (.ok "")
        ⟨(), [partlySigned]⟩ = none := rfl
  refine ⟨panics, ?_⟩
  rintro ⟨after, result, returns, -⟩
  rw [panics] at returns
  cases returns

end Bwk.Hwi
