import Mathlib

namespace Bwk.JsonDecode

/-!
# Reading typed values from JSON

A JSON value is read as a type by a decoder that either gives the value or
refuses.  Records are read by the names of their fields, from an object, whose
other members are ignored, or from an array with the fields in order.
-/

/-- A JSON number: an integer, or the text of any other. -/
inductive Number where
  | int (value : Int)
  | float (text : String)
  deriving Repr, DecidableEq

/-- A JSON value.  No two members of an object have one name. -/
inductive Json where
  | null
  | bool (value : Bool)
  | number (value : Number)
  | string (value : String)
  | array (elements : List Json)
  | object (members : List (String × Json))

abbrev Decoder (α : Type) := Json → Option α

/-- How a field is read, when it is there and when it is not. -/
abbrev FieldDecoder (α : Type) := Option Json → Option α

section Decoders

variable {α β : Type}

def value : Decoder Json := some

def string : Decoder String
  | .string text => some text
  | _ => none

/-- A truth value. -/
def bool : Decoder Bool
  | .bool truth => some truth
  | _ => none

def float : Decoder Number
  | .number number => some number
  | _ => none

/-- An integer between two bounds. -/
def integer (low high : Int) : Decoder Int
  | .number (.int number) =>
      if low ≤ number ∧ number ≤ high then some number else none
  | _ => none

def unsigned (bits : Nat) : Decoder Nat
  | .number (.int number) =>
      if 0 ≤ number ∧ number < 2 ^ bits then some number.toNat else none
  | _ => none

/-- A value or `null`. -/
def nullable (decode : Decoder α) : Decoder (Option α)
  | .null => some none
  | json => (decode json).map some

/-- The values of an array. -/
def list (decode : Decoder α) : Decoder (List α)
  | .array elements => elements.mapM decode
  | _ => none

/-- An array of two values. -/
def pair (first : Decoder α) (second : Decoder β) : Decoder (α × β)
  | .array [left, right] => do
      return (← first left, ← second right)
  | _ => none

/-- The values of an object by their names. -/
def members (decode : Decoder α) : Decoder (List (String × α))
  | .object fields =>
      fields.mapM fun field => (decode field.2).map (Prod.mk field.1)
  | _ => none

/-- The first of two readings that does not refuse. -/
def either (first second : Decoder α) : Decoder α :=
  fun json => (first json).or (second json)

def tag (named : String → Option α) : Decoder α
  | .string name => named name
  | .object [(name, .null)] => named name
  | _ => none

def objectFields (names : List String) : Decoder (List (Option Json))
  | .object members => some (names.map (fun name => members.lookup name))
  | _ => none

/-- The fields of a record from an object, or in order from an array. -/
def fields (names : List String) : Decoder (List (Option Json))
  | .array elements =>
      if elements.length = names.length then
        some (elements.map some)
      else
        none
  | json => objectFields names json

def required (decode : Decoder α) : FieldDecoder α
  | some json => decode json
  | none => none

def optional (decode : Decoder α) : FieldDecoder (Option α)
  | some json => nullable decode json
  | none => some none

end Decoders

section All

variable {ε α β : Type} {decode : α → Except ε β}

theorem mapM_ok_iff (elements : List α) (results : List β) :
    elements.mapM decode = .ok results ↔
      List.Forall₂ (fun element result => decode element = .ok result)
        elements results := by
  induction elements generalizing results with
  | nil =>
      rw [List.mapM_nil, List.forall₂_nil_left_iff]
      constructor
      · rintro ⟨⟩
        rfl
      · rintro rfl
        rfl
  | cons element rest inductionHypothesis =>
      rw [List.mapM_cons, List.forall₂_cons_left_iff]
      cases first : decode element with
      | error cause =>
          constructor
          · rintro ⟨⟩
          · rintro ⟨result, others, refused, -⟩
            cases refused
      | ok result =>
          cases later : rest.mapM decode with
          | error cause =>
              constructor
              · rintro ⟨⟩
              · rintro ⟨_, others, -, read, -⟩
                rw [(inductionHypothesis others).mpr read] at later
                cases later
          | ok others =>
              constructor
              · rintro ⟨⟩
                exact ⟨result, others, rfl,
                  (inductionHypothesis others).mp later, rfl⟩
              · rintro ⟨same, others', sameResult, read, rfl⟩
                cases sameResult
                rw [(inductionHypothesis others').mpr read] at later
                cases later
                rfl

def readable (decode : α → Except ε β) (elements : List α) : List β :=
  elements.filterMap (fun element => (decode element).toOption)

theorem mapM_of_all
    {elements : List α}
    (all : ∀ element ∈ elements, (decode element).toOption.isSome) :
    elements.mapM decode = .ok (readable decode elements) := by
  rw [mapM_ok_iff]
  induction elements with
  | nil =>
      exact .nil
  | cons element rest inductionHypothesis =>
      have later :=
        inductionHypothesis (fun other member =>
          all other (List.mem_cons_of_mem _ member))
      have first := all element List.mem_cons_self
      cases read : decode element with
      | error cause =>
          rw [read] at first
          cases first
      | ok result =>
          rw [readable, List.filterMap_cons, read]
          exact .cons read later

theorem all_of_mapM
    {elements : List α}
    {results : List β}
    (read : elements.mapM decode = .ok results)
    {element : α}
    (member : element ∈ elements) :
    (decode element).toOption.isSome := by
  rw [mapM_ok_iff] at read
  induction read with
  | nil =>
      cases member
  | cons first later inductionHypothesis =>
      cases member with
      | head =>
          rw [first]
          rfl
      | tail _ inRest =>
          exact inductionHypothesis inRest

end All

end Bwk.JsonDecode
