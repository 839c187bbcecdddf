import Bwk.RowBackends

namespace Bwk.RowBackends

open Bwk.HeaderFile

/-!
# What both backends store

A backend stands for one map of values a store.  Each backend is compared with
that, so that what the two have in common is what the maps say: the JSON files
hold the maps as they are, the SQLite tables hold bytes that read as their
values, in every row but the one kept for the version.
-/

variable {Value : Type}

abbrev RowMaps (Value : Type) := String → BTreeMap String Value

namespace RowMaps

def put
    (maps : RowMaps Value)
    (store key : String)
    (value : Value) : RowMaps Value :=
  Function.update maps store ((maps store).insert key value)

def delete (maps : RowMaps Value) (store key : String) : RowMaps Value :=
  Function.update maps store ((maps store).erase key)

def deleteAll
    (maps : RowMaps Value)
    (store : String)
    (keys : List String) : RowMaps Value :=
  keys.foldl (fun maps key => maps.delete store key) maps

def putAll
    (maps : RowMaps Value)
    (store : String)
    (rows : List (String × Value)) : RowMaps Value :=
  rows.foldl (fun maps row => maps.put store row.1 row.2) maps

variable (maps : RowMaps Value) (store : String) (keys : List String)
variable (rows : List (String × Value))

theorem deleteAll_eq :
    maps.deleteAll store keys =
      Function.update maps store ((maps store).eraseAll keys) := by
  induction keys generalizing maps with
  | nil =>
      exact (Function.update_eq_self store maps).symm
  | cons key later inductionHypothesis =>
      rw [show maps.deleteAll store (key :: later) =
          (maps.delete store key).deleteAll store later from rfl,
        inductionHypothesis, delete, Function.update_self,
        Function.update_idem]
      rfl

theorem putAll_eq :
    maps.putAll store rows =
      Function.update maps store ((maps store).insertAll rows) := by
  induction rows generalizing maps with
  | nil =>
      exact (Function.update_eq_self store maps).symm
  | cons row later inductionHypothesis =>
      rw [show maps.putAll store (row :: later) =
          (maps.put store row.1 row.2).putAll store later from rfl,
        inductionHypothesis, put, Function.update_self, Function.update_idem]
      rfl

theorem batch_eq :
    (maps.deleteAll store keys).putAll store rows =
      Function.update maps store
        (((maps store).eraseAll keys).insertAll rows) := by
  rw [putAll_eq, deleteAll_eq, Function.update_self, Function.update_idem]

end RowMaps

/-- No rows where the version is kept. -/
def Clear (maps : RowMaps Value) : Prop :=
  ∀ store key, Reserved store key → (maps store)[key]? = none

variable {maps : RowMaps Value}

theorem Clear.put
    (clear : Clear maps)
    {store key : String}
    (free : ¬ Reserved store key)
    (value : Value) :
    Clear (maps.put store key value) := by
  intro other query reserved
  by_cases same : other = store
  · subst same
    have apart : key ≠ query := by
      rintro rfl
      exact free reserved
    rw [RowMaps.put, Function.update_self, BTreeMap.getElem?_insert_eq,
      if_neg apart]
    exact clear other query reserved
  · rw [RowMaps.put, Function.update_of_ne same]
    exact clear other query reserved

theorem Clear.delete
    (clear : Clear maps)
    (store key : String) :
    Clear (maps.delete store key) := by
  intro other query reserved
  by_cases same : other = store
  · subst same
    rw [RowMaps.delete, Function.update_self, BTreeMap.getElem?_erase_eq]
    split
    · rfl
    · exact clear other query reserved
  · rw [RowMaps.delete, Function.update_of_ne same]
    exact clear other query reserved

theorem Clear.deleteAll
    (clear : Clear maps)
    (store : String)
    (keys : List String) :
    Clear (maps.deleteAll store keys) := by
  induction keys generalizing maps with
  | nil => exact clear
  | cons key later inductionHypothesis =>
      exact inductionHypothesis (clear.delete store key)

theorem Clear.putAll
    (clear : Clear maps)
    {store : String}
    {rows : List (String × Value)}
    (free : ∀ row ∈ rows, ¬ Reserved store row.1) :
    Clear (maps.putAll store rows) := by
  induction rows generalizing maps with
  | nil => exact clear
  | cons row later inductionHypothesis =>
      exact
        inductionHypothesis
          (clear.put (free row List.mem_cons_self) row.2)
          (fun other member => free other (List.mem_cons_of_mem _ member))

section Stable

variable [SerdeJson Value]

/-- A row whose value reads back unchanged, alone and in a file. -/
def Stable (key : String) (value : Value) : Prop :=
  SerdeJson.fromSlice (SerdeJson.toVec value) = some value ∧
    SerdeJson.rowsFromSlice
        (SerdeJson.rowsToVecPretty ((∅ : BTreeMap String Value).insert key
          value)) =
      some ((∅ : BTreeMap String Value).insert key value)

/-- Rows that all survive being written. -/
def AllStable (maps : RowMaps Value) : Prop :=
  ∀ store key value, (maps store)[key]? = some value → Stable key value

/-- What is relied on of the JSON library: an object reads back unchanged when
each of its members does on its own. -/
class LawfulSerdeJson (Value : Type) [SerdeJson Value] : Prop where
  rows_of_each :
    ∀ rows : BTreeMap String Value,
      (∀ key value, rows[key]? = some value →
        SerdeJson.rowsFromSlice
            (SerdeJson.rowsToVecPretty ((∅ : BTreeMap String Value).insert key
              value)) =
          some ((∅ : BTreeMap String Value).insert key value)) →
        SerdeJson.rowsFromSlice (SerdeJson.rowsToVecPretty rows) = some rows

/-- Bytes that read as a value which survives being written. -/
def Writable (Value : Type) [SerdeJson Value] (key : String) (bytes : Bytes) :
    Prop :=
  ∃ value : Value, SerdeJson.fromSlice bytes = some value ∧ Stable key value

theorem AllStable.put
    (stable : AllStable maps)
    {store key : String}
    {value : Value}
    (survives : Stable key value) :
    AllStable (maps.put store key value) := by
  intro other query found present
  by_cases same : other = store
  · subst same
    rw [RowMaps.put, Function.update_self,
      BTreeMap.getElem?_insert_eq] at present
    split at present
    case isTrue here =>
      cases present
      cases here
      exact survives
    case isFalse =>
      exact stable other query found present
  · rw [RowMaps.put, Function.update_of_ne same] at present
    exact stable other query found present

theorem AllStable.delete
    (stable : AllStable maps)
    (store key : String) :
    AllStable (maps.delete store key) := by
  intro other query found present
  by_cases same : other = store
  · subst same
    rw [RowMaps.delete, Function.update_self,
      BTreeMap.getElem?_erase_eq] at present
    split at present
    case isTrue => cases present
    case isFalse => exact stable other query found present
  · rw [RowMaps.delete, Function.update_of_ne same] at present
    exact stable other query found present

theorem AllStable.deleteAll
    (stable : AllStable maps)
    (store : String)
    (keys : List String) :
    AllStable (maps.deleteAll store keys) := by
  induction keys generalizing maps with
  | nil => exact stable
  | cons key later inductionHypothesis =>
      exact inductionHypothesis (stable.delete store key)

theorem AllStable.putAll
    (stable : AllStable maps)
    (store : String)
    {rows : List (String × Value)}
    (survive : ∀ row ∈ rows, Stable row.1 row.2) :
    AllStable (maps.putAll store rows) := by
  induction rows generalizing maps with
  | nil => exact stable
  | cons row later inductionHypothesis =>
      exact
        inductionHypothesis
          (stable.put (survive row List.mem_cons_self))
          (fun other member => survive other (List.mem_cons_of_mem _ member))

end Stable

variable {σ : Type} {store : String}

theorem validate_known
    (known : store ∈ knownStores)
    (state : σ) :
    validateStoreName store state = .ok () state := by
  rw [validateStoreName, if_pos known]
  rfl

theorem validate_unknown
    (unknown : store ∉ knownStores)
    (state : σ) :
    validateStoreName store state = .error (.unknownStore store) state := by
  rw [validateStoreName, if_neg unknown]
  rfl

end Bwk.RowBackends
