import Bwk.SignerPanics

namespace Bwk.Sign

open Hwi (DerivationPath)

/-!
# Signing one input beside the others

A loop over the inputs may end early or panic, so what is stored into an input
depends on the inputs before it.  An input is signed as it would be alone when
no input panics and no signature is lost with a loop that ended early.
-/

variable {SecretKey Shared Rest : Type}

/-- A descriptor a signer goes through the inputs with. -/
abbrev Loop (SecretKey : Type) :=
  HotSigner SecretKey × SpkDerivator

section Definitions

variable (crates : Crates SecretKey Shared Rest)
variable (loop : Loop SecretKey)
variable (shared : Shared) (prevouts : List TxOut)

def turn
    (index : Nat)
    (input : Input Rest) : Option (Except SignError Bool × List Stored) :=
  signInput crates loop.1 loop.2 shared prevouts index input

def goesOn (index : Nat) (input : Input Rest) : Bool :=
  match turn crates loop shared prevouts index input with
  | some (.ok _, _) => true
  | some (.error _, _) | none => false

def adds (index : Nat) (input : Input Rest) : List Stored :=
  match turn crates loop shared prevouts index input with
  | some (_, stored) => stored
  | none => []

/-- Whether the loop comes to an input. -/
def reaches (first : Nat) (inputs : List (Input Rest)) (place : Nat) : Bool :=
  (List.range place).all (fun before =>
    (inputs[before]?).all (fun input =>
      goesOn crates loop shared prevouts (first + before) input))

/-- What the loop stores into an input, if it comes to it. -/
def reachedAdds
    (first : Nat)
    (inputs : List (Input Rest))
    (place : Nat)
    (input : Input Rest) : List Stored :=
  if reaches crates loop shared prevouts first inputs place then
    adds crates loop shared prevouts (first + place) input
  else
    []

end Definitions

section Loop

variable {crates : Crates SecretKey Shared Rest}
variable {loop : Loop SecretKey}
variable {shared : Shared} {prevouts : List TxOut} {first : Nat}

@[simp] theorem reaches_zero (inputs : List (Input Rest)) :
    reaches crates loop shared prevouts first inputs 0 = true :=
  rfl

theorem reaches_succ
    (input : Input Rest)
    (later : List (Input Rest))
    (place : Nat) :
    reaches crates loop shared prevouts first (input :: later) (place + 1) =
      (goesOn crates loop shared prevouts first input &&
        reaches crates loop shared prevouts (first + 1) later place) := by
  unfold reaches
  rw [List.range_succ_eq_map, List.all_cons, List.all_map]
  congr 2
  funext before
  rw [Function.comp_apply, Nat.succ_eq_add_one, List.getElem?_cons_succ,
    Nat.add_assoc first 1 before, Nat.add_comm 1 before]

theorem signInputs_spec
    {inputs after : List (Input Rest)}
    {result : Except SignError Bool}
    (ran :
      signInputs crates loop.1 loop.2 shared prevouts first inputs =
        some (result, after))
    (place : Nat) :
    after[place]? =
      (inputs[place]?).map (fun input =>
        storeAll input
          (reachedAdds crates loop shared prevouts first inputs place
            input)) := by
  induction inputs generalizing first after result place with
  | nil =>
      cases ran
      rfl
  | cons input later inductionHypothesis =>
      rw [signInputs] at ran
      split at ran
      · cases ran
      · next reason stored taken =>
          cases ran
          have stored_ :
              adds crates loop shared prevouts first input = stored := by
            unfold adds turn
            rw [taken]
          have leaves :
              goesOn crates loop shared prevouts first input = false := by
            unfold goesOn turn
            rw [taken]
          cases place with
          | zero =>
              simp [reachedAdds, stored_]
          | succ place =>
              simp only [List.getElem?_cons_succ, reachedAdds, reaches_succ,
                leaves, Bool.false_and, Bool.false_eq_true, ↓reduceIte]
              exact Option.map_id_fun'.symm ▸ rfl
      · next signed stored taken =>
          obtain ⟨⟨outcome, rest⟩, run, same⟩ :=
            Option.map_eq_some_iff.mp ran
          cases same
          have stored_ :
              adds crates loop shared prevouts first input = stored := by
            unfold adds turn
            rw [taken]
          have goes :
              goesOn crates loop shared prevouts first input = true := by
            unfold goesOn turn
            rw [taken]
          cases place with
          | zero =>
              simp [reachedAdds, stored_]
          | succ place =>
              rw [List.getElem?_cons_succ, List.getElem?_cons_succ,
                inductionHypothesis run]
              simp only [reachedAdds, reaches_succ, goes, Bool.true_and,
                Nat.add_assoc, Nat.add_comm 1 place]

theorem signInputs_eq_none_iff
    {inputs : List (Input Rest)} :
    signInputs crates loop.1 loop.2 shared prevouts first inputs = none ↔
      ∃ place input, inputs[place]? = some input ∧
        reaches crates loop shared prevouts first inputs place = true ∧
        turn crates loop shared prevouts (first + place) input = none := by
  induction inputs generalizing first with
  | nil =>
      simp [signInputs]
  | cons input later inductionHypothesis =>
      have here_or_later :
          (∃ place other, (input :: later)[place]? = some other ∧
              reaches crates loop shared prevouts first (input :: later)
                place = true ∧
              turn crates loop shared prevouts (first + place) other =
                none) ↔
            turn crates loop shared prevouts first input = none ∨
              goesOn crates loop shared prevouts first input = true ∧
                ∃ place other, later[place]? = some other ∧
                  reaches crates loop shared prevouts (first + 1) later
                    place = true ∧
                  turn crates loop shared prevouts (first + 1 + place)
                    other = none := by
        constructor
        · rintro ⟨place, other, there, reached, missing⟩
          cases place with
          | zero =>
              cases there
              exact .inl missing
          | succ place =>
              rw [reaches_succ, Bool.and_eq_true] at reached
              refine .inr ⟨reached.1, place, other, there, reached.2, ?_⟩
              rw [← missing, Nat.add_assoc, Nat.add_comm 1 place]
        · rintro (missing | ⟨goes, place, other, there, reached, missing⟩)
          · exact ⟨0, input, rfl, rfl, missing⟩
          · refine ⟨place + 1, other, there, ?_, ?_⟩
            · rw [reaches_succ, goes, reached]
              rfl
            · rw [← missing, Nat.add_assoc, Nat.add_comm 1 place]
      rw [here_or_later, ← inductionHypothesis, signInputs]
      unfold goesOn turn
      split
      · next missing =>
          simp [missing]
      · next reason stored taken =>
          simp [taken]
      · next signed stored taken =>
          simp [taken]

end Loop

theorem foldlM_bind_eq
    {State Name Found : Type}
    (find : Name → Option Found)
    (step : State → Found → Option State)
    (names : List Name)
    (state : State) :
    names.foldlM (fun state name => (find name).bind (step state)) state =
      (names.mapM find).bind (fun found => found.foldlM step state) := by
  induction names generalizing state with
  | nil =>
      rfl
  | cons name later inductionHypothesis =>
      rw [List.foldlM_cons, List.mapM_cons]
      cases found : find name with
      | none =>
          rfl
      | some value =>
          simp only [Option.bind_eq_bind, Option.bind_some,
            inductionHypothesis]
          cases listed : later.mapM find with
          | none =>
              cases step state value <;> rfl
          | some values =>
              rfl

theorem mem_of_mapM
    {Name Found : Type}
    {find : Name → Option Found}
    {names : List Name}
    {found : List Found}
    (all : names.mapM find = some found)
    {value : Found}
    (member : value ∈ found) :
    ∃ name ∈ names, find name = some value := by
  induction names generalizing found with
  | nil =>
      cases all
      cases member
  | cons name later inductionHypothesis =>
      rw [List.mapM_cons] at all
      obtain ⟨first, here, rest⟩ := Option.bind_eq_some_iff.mp all
      obtain ⟨others, there, same⟩ := Option.bind_eq_some_iff.mp rest
      cases same
      rcases List.mem_cons.mp member with rfl | inside
      · exact ⟨name, List.mem_cons_self, here⟩
      · obtain ⟨other, listed, found⟩ := inductionHypothesis there inside
        exact ⟨other, List.mem_cons_of_mem _ listed, found⟩

def loop?
    (use : HotSigner SecretKey × Descriptor) : Option (Loop SecretKey) :=
  match SpkDerivator.new use.2 use.1.network with
  | some (.ok derivator) => some (use.1, derivator)
  | some (.error _) | none => none

/-- The loops of a manager, in order, when every descriptor can be used. -/
def SigningManager.loops
    (manager : SigningManager SecretKey) : Option (List (Loop SecretKey)) :=
  (manager.bip32Signers.flatMap (fun signer =>
    signer.descriptors.map (fun descriptor => (signer, descriptor)))).mapM
    loop?

section Fold

variable (crates : Crates SecretKey Shared Rest)

def loopStep
    (psbt : Psbt Shared Rest)
    (loop : Loop SecretKey) : Option (Psbt Shared Rest) :=
  (signInputs crates loop.1 loop.2 psbt.shared (prevoutsOf psbt.inputs) 0
    psbt.inputs).map (fun (_, inputs) => { psbt with inputs := inputs })

theorem innerSign_map_snd
    (signer : HotSigner SecretKey)
    (psbt : Psbt Shared Rest)
    (descriptor : Descriptor) :
    (innerSign crates signer psbt descriptor).map Prod.snd =
      (loop? (signer, descriptor)).bind (loopStep crates psbt) := by
  unfold innerSign loop?
  dsimp only
  rcases SpkDerivator.new descriptor signer.network with _ | (_ | derivator)
  · rfl
  · rfl
  · unfold loopStep
    simp only [Option.map_map, Option.bind_some]
    rfl

theorem signPsbt_eq
    (manager : SigningManager SecretKey)
    (psbt : Psbt Shared Rest) :
    manager.signPsbt crates psbt =
      manager.loops.bind (fun loops =>
        loops.foldlM (loopStep crates) psbt) := by
  unfold SigningManager.loops
  rw [← foldlM_bind_eq]
  unfold SigningManager.signPsbt
  induction manager.bip32Signers generalizing psbt with
  | nil =>
      rfl
  | cons signer later inductionHypothesis =>
      have here :
          sign crates signer psbt =
            signer.descriptors.foldlM
              (fun psbt descriptor =>
                (loop? (signer, descriptor)).bind (loopStep crates psbt))
              psbt := by
        unfold sign
        simp only [innerSign_map_snd]
      rw [List.foldlM_cons, List.flatMap_cons, List.foldlM_append,
        List.foldlM_map, here]
      congr 1
      funext next
      exact inductionHypothesis next

end Fold

section Base

variable {crates : Crates SecretKey Shared Rest} {loop : Loop SecretKey}
variable {shared : Shared} {prevouts : List TxOut}
variable {first index : Nat}

theorem turn_congr
    {left right : Input Rest}
    (same : base left = base right) :
    turn crates loop shared prevouts index left =
      turn crates loop shared prevouts index right :=
  signInput_congr same

variable {left right : List (Input Rest)}

theorem reaches_congr
    (same : left.map base = right.map base)
    (place : Nat) :
    reaches crates loop shared prevouts first left place =
      reaches crates loop shared prevouts first right place := by
  unfold reaches
  congr 1
  funext before
  have sameHere := congrArg (fun bases => bases[before]?) same
  simp only [List.getElem?_map] at sameHere
  cases there : left[before]? with
  | none =>
      rw [there, Option.map_none, eq_comm, Option.map_eq_none_iff]
        at sameHere
      rw [sameHere]
  | some input =>
      rw [there, Option.map_some, eq_comm, Option.map_eq_some_iff]
        at sameHere
      obtain ⟨other, listed, sameBase⟩ := sameHere
      rw [listed, Option.all_some, Option.all_some]
      unfold goesOn
      rw [turn_congr sameBase]

theorem prevoutsOf_congr
    (same : left.map base = right.map base) :
    prevoutsOf left = prevoutsOf right := by
  have shape :
      ∀ inputs : List (Input Rest),
        prevoutsOf inputs =
          (inputs.map base).filterMap (fun base => base.2.witnessUtxo) := by
    intro inputs
    rw [List.filterMap_map]
    rfl
  rw [shape, shape, same]

end Base

section Run

variable (crates : Crates SecretKey Shared Rest)
variable (psbt : Psbt Shared Rest)

def turnAt
    (loop : Loop SecretKey)
    (place : Nat)
    (input : Input Rest) : Option (Except SignError Bool × List Stored) :=
  turn crates loop psbt.shared (prevoutsOf psbt.inputs) place input

def comesTo (loop : Loop SecretKey) (place : Nat) : Bool :=
  reaches crates loop psbt.shared (prevoutsOf psbt.inputs) 0 psbt.inputs
    place

def addsAt
    (loop : Loop SecretKey)
    (place : Nat)
    (input : Input Rest) : List Stored :=
  adds crates loop psbt.shared (prevoutsOf psbt.inputs) place input

def allAdds
    (loops : List (Loop SecretKey))
    (place : Nat)
    (input : Input Rest) : List Stored :=
  loops.flatMap (fun loop =>
    if comesTo crates psbt loop place then
      addsAt crates psbt loop place input
    else
      [])

end Run

section Runs

variable {crates : Crates SecretKey Shared Rest}
variable {psbt after : Psbt Shared Rest}

theorem loopStep_spec
    {loop : Loop SecretKey}
    (ran : loopStep crates psbt loop = some after) :
    after.shared = psbt.shared ∧ ∀ place,
      after.inputs[place]? =
        (psbt.inputs[place]?).map (fun input =>
          storeAll input (allAdds crates psbt [loop] place input)) := by
  obtain ⟨⟨result, inputs⟩, run, rfl⟩ := Option.map_eq_some_iff.mp ran
  refine ⟨rfl, fun place => ?_⟩
  rw [signInputs_spec run]
  congr 1
  funext input
  simp only [allAdds, List.flatMap_cons, List.flatMap_nil, List.append_nil]
  unfold reachedAdds comesTo addsAt
  rw [Nat.zero_add]

theorem map_base_of_stored
    {stored : Nat → Input Rest → List Stored}
    (left_ :
      ∀ place, after.inputs[place]? =
        (psbt.inputs[place]?).map (fun input =>
          storeAll input (stored place input))) :
    after.inputs.map base = psbt.inputs.map base := by
  apply List.ext_getElem?
  intro place
  rw [List.getElem?_map, List.getElem?_map, left_, Option.map_map]
  congr 1
  funext input
  exact base_storeAll ..

theorem allAdds_congr
    (sameShared : after.shared = psbt.shared)
    (same : after.inputs.map base = psbt.inputs.map base)
    (loops : List (Loop SecretKey))
    (place : Nat)
    {input other : Input Rest}
    (sameInput : base input = base other) :
    allAdds crates after loops place input =
      allAdds crates psbt loops place other := by
  unfold allAdds comesTo addsAt adds
  simp only [sameShared, prevoutsOf_congr same, reaches_congr same,
    turn_congr sameInput]

theorem foldlM_loopStep_spec
    {loops : List (Loop SecretKey)}
    (ran : loops.foldlM (loopStep crates) psbt = some after) :
    after.shared = psbt.shared ∧ ∀ place,
      after.inputs[place]? =
        (psbt.inputs[place]?).map (fun input =>
          storeAll input (allAdds crates psbt loops place input)) := by
  induction loops generalizing psbt with
  | nil =>
      cases ran
      exact ⟨rfl, fun place => Option.map_id_fun'.symm ▸ rfl⟩
  | cons loop later inductionHypothesis =>
      rw [List.foldlM_cons] at ran
      obtain ⟨middle, step, rest⟩ := Option.bind_eq_some_iff.mp ran
      obtain ⟨sameShared, stored⟩ := loopStep_spec step
      obtain ⟨sameAfter, storedLater⟩ := inductionHypothesis rest
      have same := map_base_of_stored stored
      refine ⟨sameAfter.trans sameShared, fun place => ?_⟩
      rw [storedLater, stored, Option.map_map]
      congr 1
      funext input
      rw [Function.comp_apply,
        allAdds_congr sameShared same later place (base_storeAll ..),
        ← storeAll_append]
      congr 1
      simp only [allAdds, List.flatMap_cons, List.flatMap_nil,
        List.append_nil]

theorem foldlM_loopStep_eq_none_iff
    {loops : List (Loop SecretKey)} :
    loops.foldlM (loopStep crates) psbt = none ↔
      ∃ loop ∈ loops, ∃ place input, psbt.inputs[place]? = some input ∧
        comesTo crates psbt loop place = true ∧
        turnAt crates psbt loop place input = none := by
  induction loops generalizing psbt with
  | nil =>
      simp
  | cons loop later inductionHypothesis =>
      rw [List.foldlM_cons]
      have one :
          loopStep crates psbt loop = none ↔
            ∃ place input, psbt.inputs[place]? = some input ∧
              comesTo crates psbt loop place = true ∧
              turnAt crates psbt loop place input = none := by
        unfold loopStep
        rw [Option.map_eq_none_iff, signInputs_eq_none_iff]
        simp only [Nat.zero_add]
        rfl
      cases step : loopStep crates psbt loop with
      | none =>
          refine iff_of_true rfl ⟨loop, List.mem_cons_self, one.mp step⟩
      | some middle =>
          obtain ⟨sameShared, stored⟩ := loopStep_spec step
          have same := map_base_of_stored stored
          have passed := mt one.mpr (by rw [step]; exact Option.some_ne_none _)
          have moved :
              ∀ loop : Loop SecretKey,
                (∃ place input, middle.inputs[place]? = some input ∧
                    comesTo crates middle loop place = true ∧
                    turnAt crates middle loop place input = none) ↔
                  ∃ place input, psbt.inputs[place]? = some input ∧
                    comesTo crates psbt loop place = true ∧
                    turnAt crates psbt loop place input = none := by
            intro loop
            refine exists_congr fun place => ?_
            unfold comesTo turnAt
            rw [sameShared, prevoutsOf_congr same, reaches_congr same, stored]
            cases psbt.inputs[place]? with
            | none =>
                simp
            | some input =>
                simp only [Option.map_some, Option.some.injEq,
                  exists_eq_left']
                rw [turn_congr (base_storeAll ..)]
          refine (inductionHypothesis).trans ?_
          simp only [moved, List.mem_cons, exists_eq_or_imp]
          exact ⟨.inr, fun either => either.resolve_left passed⟩

end Runs

/-- An input without derivation metadata. -/
def cleared (input : Input Rest) : Input Rest :=
  { input with
    bip32Derivation := ∅
    fields :=
      { input.fields with tapInternalKey := none, tapKeyOrigins := ∅ } }

/-- A PSBT with the derivation metadata of one input only. -/
def alone (psbt : Psbt Shared Rest) (place : Nat) : Psbt Shared Rest :=
  { psbt with
    inputs :=
      psbt.inputs.mapIdx (fun index input =>
        if index = place then input else cleared input) }

section Alone

variable {crates : Crates SecretKey Shared Rest}
variable {psbt : Psbt Shared Rest} {place : Nat}

theorem getElem?_alone (index : Nat) :
    (alone psbt place).inputs[index]? =
      (psbt.inputs[index]?).map (fun input =>
        if index = place then input else cleared input) :=
  List.getElem?_mapIdx

theorem prevoutsOf_alone :
    prevoutsOf (alone psbt place).inputs = prevoutsOf psbt.inputs := by
  have shape :
      ∀ inputs : List (Input Rest),
        prevoutsOf inputs =
          (inputs.map (fun input => input.fields.witnessUtxo)).filterMap
            id := by
    intro inputs
    rw [List.filterMap_map]
    rfl
  rw [shape, shape]
  congr 1
  apply List.ext_getElem?
  intro index
  rw [List.getElem?_map, List.getElem?_map, getElem?_alone, Option.map_map]
  congr 1
  funext input
  rw [Function.comp_apply]
  split
  · rfl
  · rfl

theorem turn_cleared
    (loop : Loop SecretKey)
    (shared : Shared)
    (prevouts : List TxOut)
    (index : Nat)
    (input : Input Rest) :
    turn crates loop shared prevouts index (cleared input) =
      some (.ok false, []) :=
  signInput_empty crates loop.1 loop.2 Std.ExtTreeMap.isEmpty_empty rfl
    Std.ExtTreeMap.isEmpty_empty

theorem turnAt_alone (loop : Loop SecretKey) (input : Input Rest) :
    turnAt crates (alone psbt place) loop place input =
      turnAt crates psbt loop place input := by
  unfold turnAt
  rw [prevoutsOf_alone]
  rfl

theorem comesTo_alone (loop : Loop SecretKey) :
    comesTo crates (alone psbt place) loop place = true := by
  unfold comesTo reaches
  rw [List.all_eq_true]
  intro before member
  have other : before ≠ place := Nat.ne_of_lt (List.mem_range.mp member)
  rw [getElem?_alone]
  cases psbt.inputs[before]? with
  | none =>
      rfl
  | some input =>
      rw [Option.map_some, if_neg other, Option.all_some]
      unfold goesOn
      rw [turn_cleared]

theorem allAdds_alone (loops : List (Loop SecretKey)) (input : Input Rest) :
    allAdds crates (alone psbt place) loops place input =
      loops.flatMap (fun loop => addsAt crates psbt loop place input) := by
  unfold allAdds addsAt adds
  simp only [comesTo_alone, ↓reduceIte, prevoutsOf_alone]
  rfl

theorem foldlM_alone_eq_none_iff {loops : List (Loop SecretKey)} :
    loops.foldlM (loopStep crates) (alone psbt place) = none ↔
      ∃ loop ∈ loops, ∃ input, psbt.inputs[place]? = some input ∧
        turnAt crates psbt loop place input = none := by
  rw [foldlM_loopStep_eq_none_iff]
  refine exists_congr fun loop => and_congr_right fun _ => ?_
  constructor
  · rintro ⟨index, input, there, reached, missing⟩
    rw [getElem?_alone] at there
    obtain ⟨before, listed, shape⟩ := Option.map_eq_some_iff.mp there
    by_cases here : index = place
    · subst here
      rw [if_pos rfl] at shape
      subst shape
      exact ⟨before, listed, by rw [← turnAt_alone, missing]⟩
    · rw [if_neg here] at shape
      subst shape
      unfold turnAt at missing
      rw [turn_cleared] at missing
      cases missing
  · rintro ⟨input, listed, missing⟩
    refine ⟨place, input, ?_, comesTo_alone loop, ?_⟩
    · rw [getElem?_alone, listed, Option.map_some, if_pos rfl]
    · rw [turnAt_alone, missing]

theorem foldlM_alone_spec
    {loops : List (Loop SecretKey)}
    {signed : Psbt Shared Rest}
    (ran : loops.foldlM (loopStep crates) (alone psbt place) = some signed) :
    signed.inputs[place]? =
      (psbt.inputs[place]?).map (fun input =>
        storeAll input
          (loops.flatMap (fun loop =>
            addsAt crates psbt loop place input))) := by
  rw [(foldlM_loopStep_spec ran).2, getElem?_alone, Option.map_map]
  congr 1
  funext input
  rw [Function.comp_apply, if_pos rfl, allAdds_alone]

end Alone

section Stored

variable {crates : Crates SecretKey Shared Rest}
variable {manager : SigningManager SecretKey}
variable {psbt : Psbt Shared Rest} {place : Nat} {input : Input Rest}

theorem made_of_mem_addsAt
    {loop : Loop SecretKey}
    {stored : Stored}
    (member : stored ∈ addsAt crates psbt loop place input) :
    Made crates loop.1 loop.2 psbt.shared (prevoutsOf psbt.inputs) place
      input stored := by
  unfold addsAt adds at member
  split at member
  · next ran =>
      exact signInput_stores ran member
  · cases member

variable {loops : List (Loop SecretKey)}

theorem mem_bip32Signers_of_loops
    (listed : manager.loops = some loops)
    {loop : Loop SecretKey}
    (member : loop ∈ loops) :
    loop.1 ∈ manager.bip32Signers := by
  obtain ⟨⟨signer, descriptor⟩, used, found⟩ := mem_of_mapM listed member
  obtain ⟨owner, inManager, of⟩ := List.mem_flatMap.mp used
  obtain ⟨_, _, same⟩ := List.mem_map.mp of
  cases same
  unfold loop? at found
  split at found
  · cases found
    exact inManager
  · cases found
  · cases found

theorem oneValue_of_loops
    (injective : Function.Injective crates.publicKey)
    (listed : manager.loops = some loops) :
    Slots.OneValue
      ((loops.flatMap (fun loop => addsAt crates psbt loop place input)).map
        Stored.write) := by
  intro slot left right first second
  obtain ⟨one, inOne, sameOne⟩ := List.mem_map.mp first
  obtain ⟨other, inOther, sameOther⟩ := List.mem_map.mp second
  obtain ⟨loop, inLoops, makes⟩ := List.mem_flatMap.mp inOne
  obtain ⟨loop', inLoops', makes'⟩ := List.mem_flatMap.mp inOther
  have keyed :
      loop.1.fingerprint = loop'.1.fingerprint → loop.1 = loop'.1 :=
    fun same =>
      List.inj_on_of_nodup_map manager.keyed
        (mem_bip32Signers_of_loops listed inLoops)
        (mem_bip32Signers_of_loops listed inLoops') same
  have same : one = other :=
    (made_of_mem_addsAt makes).unique injective keyed
      (made_of_mem_addsAt makes') (by rw [sameOne, sameOther])
  rw [same, sameOther] at sameOne
  exact (Prod.mk.inj sameOne).2.symm

theorem allAdds_subset (loops : List (Loop SecretKey)) :
    allAdds crates psbt loops place input ⊆
      loops.flatMap (fun loop => addsAt crates psbt loop place input) := by
  intro stored member
  obtain ⟨loop, inLoops, inside⟩ := List.mem_flatMap.mp member
  split at inside
  · exact List.mem_flatMap.mpr ⟨loop, inLoops, inside⟩
  · cases inside

/-- The loops that come to an input leave what all of them leave just when no
signature is lost. -/
theorem storeAll_allAdds_iff
    (injective : Function.Injective crates.publicKey)
    (listed : manager.loops = some loops) :
    storeAll input (allAdds crates psbt loops place input) =
        storeAll input
          (loops.flatMap (fun loop =>
            addsAt crates psbt loop place input)) ↔
      ∀ loop ∈ loops, ∀ stored ∈ addsAt crates psbt loop place input,
        signatures input stored.write.1 = some stored.write.2 ∨
          ∃ other ∈ loops, comesTo crates psbt other place = true ∧
            stored ∈ addsAt crates psbt other place input := by
  have bySlots :
      storeAll input (allAdds crates psbt loops place input) =
          storeAll input
            (loops.flatMap (fun loop =>
              addsAt crates psbt loop place input)) ↔
        Slots.written (signatures input)
            ((allAdds crates psbt loops place input).map Stored.write) =
          Slots.written (signatures input)
            ((loops.flatMap (fun loop =>
              addsAt crates psbt loop place input)).map Stored.write) := by
    rw [← signatures_storeAll, ← signatures_storeAll]
    refine ⟨congrArg signatures, fun same => input_ext ?_ ?_ same⟩
    · rw [base_storeAll, base_storeAll]
    · rw [finalScriptWitness_storeAll, finalScriptWitness_storeAll]
  rw [bySlots, Slots.written_eq_iff (oneValue_of_loops injective listed)
    (List.map_subset _ (allAdds_subset loops))]
  have reached :
      ∀ stored, stored.write ∈
          (allAdds crates psbt loops place input).map Stored.write ↔
        ∃ other ∈ loops, comesTo crates psbt other place = true ∧
          stored ∈ addsAt crates psbt other place input := by
    intro stored
    rw [List.mem_map_of_injective Stored.write_injective]
    unfold allAdds
    simp only [List.mem_flatMap, List.mem_ite_nil_right]
  constructor
  · intro seen loop inLoops stored makes
    rw [← reached]
    exact seen _ (List.mem_map_of_mem
      (List.mem_flatMap.mpr ⟨loop, inLoops, makes⟩))
  · intro kept write member
    obtain ⟨stored, inside, rfl⟩ := List.mem_map.mp member
    obtain ⟨loop, inLoops, makes⟩ := List.mem_flatMap.mp inside
    rw [reached]
    exact kept loop inLoops stored makes

end Stored

namespace Sample

/-- Keys that are numbers, and signatures that name them. -/
def crates : Crates Nat Unit Unit where
  publicKey := id
  xOnly := id
  tapTweak := fun secret _ => secret
  signEcdsa := fun _ secret _ => List.replicate 70 (UInt8.ofNat secret)
  verifyEcdsa := fun _ _ _ => true
  signSchnorr := fun _ secret => [UInt8.ofNat secret]
  sighashEcdsa := fun _ index _ _ => some (index, sighashAll)
  taprootKeySpend := fun _ index _ => some index
  taprootScriptSpend := fun _ index _ leaf => some (index + leaf)

def descriptor : Descriptor where
  keys := [.multiXPub ⟨.test, [[0], [1]], .unhardened⟩]
  singleDescriptors :=
    some [⟨fun index => some (100 + index)⟩, ⟨fun index => some (200 + index)⟩]

/-- The key of a path is its steps in base ten. -/
def secretKeyAt (path : DerivationPath) : Option Nat :=
  some (path.foldl (fun key step => 10 * key + step + 1) 0)

def manager : SigningManager Nat where
  bip32Signers := [⟨7, secretKeyAt, [descriptor], .test⟩]
  keyed := by simp

def listing (path : DerivationPath) (script : ScriptBuf) : Input Unit where
  bip32Derivation :=
    Std.ExtTreeMap.insert ∅ ((secretKeyAt path).getD 0) (7, path)
  partialSigs := ∅
  tapScriptSigs := ∅
  tapKeySig := none
  finalScriptWitness := none
  fields := ⟨some ⟨1000, script⟩, none, ∅, none, ()⟩

/-- An input with an internal key beside its ECDSA derivations. -/
def mixed : Input Unit :=
  { listing [0, 5] 105 with
    fields := ⟨some ⟨1000, 105⟩, some 3, ∅, none, ()⟩ }

/-- A path of one step, before an input of ours. -/
def spoiled : Psbt Unit Unit :=
  ⟨(), [listing [0] 100, listing [0, 5] 105]⟩

/-- An input of ours. -/
def fine : Psbt Unit Unit :=
  ⟨(), [listing [0, 5] 105]⟩

end Sample

section Survival

variable (crates : Crates SecretKey Shared Rest)
variable (manager : SigningManager SecretKey)
variable (psbt : Psbt Shared Rest)

/-- Signing comes back, and stores into every input what it stores when the
other inputs have no derivation metadata. -/
def Survives : Prop :=
  ∃ after, manager.signPsbt crates psbt = some after ∧ ∀ place,
    ∃ signed, manager.signPsbt crates (alone psbt place) = some signed ∧
      after.inputs[place]? = signed.inputs[place]?

/-- Every descriptor can be used, no input is one a loop panics at, and a
signature some loop makes is there already or made by a loop that no input
before ends. -/
def Undisturbed : Prop :=
  ∃ loops, manager.loops = some loops ∧
    ∀ place input, psbt.inputs[place]? = some input → ∀ loop ∈ loops,
      ¬ Panics crates loop.1 loop.2 psbt.shared (prevoutsOf psbt.inputs) place
          input ∧
        ∀ stored ∈ addsAt crates psbt loop place input,
          signatures input stored.write.1 = some stored.write.2 ∨
            ∃ other ∈ loops, comesTo crates psbt other place = true ∧
              stored ∈ addsAt crates psbt other place input

variable {crates manager psbt}

/-- Signing panics at a descriptor that cannot be used, and at the inputs a
loop comes to and panics at. -/
theorem signPsbt_eq_none_iff :
    manager.signPsbt crates psbt = none ↔
      ∀ loops, manager.loops = some loops →
        ∃ loop ∈ loops, ∃ place input, psbt.inputs[place]? = some input ∧
          comesTo crates psbt loop place = true ∧
          Panics crates loop.1 loop.2 psbt.shared (prevoutsOf psbt.inputs)
            place input := by
  rw [signPsbt_eq]
  simp only [← signInput_eq_none_iff]
  cases listed : manager.loops with
  | none =>
      simp
  | some loops =>
      rw [Option.bind_some, foldlM_loopStep_eq_none_iff]
      simp only [Option.some.injEq, forall_eq']
      rfl

theorem survives_iff
    (injective : Function.Injective crates.publicKey) :
    Survives crates manager psbt ↔ Undisturbed crates manager psbt := by
  unfold Survives Undisturbed
  simp only [signPsbt_eq, ← signInput_eq_none_iff]
  constructor
  · rintro ⟨after, ran, same⟩
    obtain ⟨loops, listed, run⟩ := Option.bind_eq_some_iff.mp ran
    refine ⟨loops, listed, fun place input there loop inLoops => ?_⟩
    obtain ⟨signed, ranAlone, here⟩ := same place
    rw [listed, Option.bind_some] at ranAlone
    refine ⟨fun missing => ?_, ?_⟩
    · have panicked := foldlM_alone_eq_none_iff.mpr
        ⟨loop, inLoops, input, there, missing⟩
      cases panicked.symm.trans ranAlone
    · rw [(foldlM_loopStep_spec run).2, foldlM_alone_spec ranAlone, there,
        Option.map_some, Option.map_some, Option.some.injEq,
        storeAll_allAdds_iff injective listed] at here
      exact here loop inLoops
  · rintro ⟨loops, listed, kept⟩
    have runs :
        ∀ psbt' : Psbt Shared Rest,
          loops.foldlM (loopStep crates) psbt' ≠ none →
            ∃ after, loops.foldlM (loopStep crates) psbt' = some after :=
      fun psbt' some_ => Option.ne_none_iff_exists'.mp some_
    obtain ⟨after, ran⟩ := runs psbt (by
      rw [Ne, foldlM_loopStep_eq_none_iff]
      rintro ⟨loop, inLoops, place, input, there, -, missing⟩
      exact (kept place input there loop inLoops).1 missing)
    refine ⟨after, by rw [listed, Option.bind_some, ran], fun place => ?_⟩
    obtain ⟨signed, ranAlone⟩ := runs (alone psbt place) (by
      rw [Ne, foldlM_alone_eq_none_iff]
      rintro ⟨loop, inLoops, input, there, missing⟩
      exact (kept place input there loop inLoops).1 missing)
    refine ⟨signed, by rw [listed, Option.bind_some, ranAlone], ?_⟩
    rw [(foldlM_loopStep_spec ran).2, foldlM_alone_spec ranAlone]
    cases there : psbt.inputs[place]? with
    | none =>
        rfl
    | some input =>
        rw [Option.map_some, Option.map_some, Option.some.injEq,
          storeAll_allAdds_iff injective listed]
        exact fun loop inLoops => (kept place input there loop inLoops).2

end Survival

end Bwk.Sign
