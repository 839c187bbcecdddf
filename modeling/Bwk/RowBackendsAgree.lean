import Bwk.RowRefines

namespace Bwk.RowBackends

open Bwk.HeaderFile

set_option linter.unusedSectionVars false

/-!
# The two backends agree

Both stand for the same rows and record the same version, as long as callers
leave the version row of the account store alone and write values that read
back unchanged.
-/

variable {Value : Type} [SerdeJson Value]

def versionText (version : UInt32) : String :=
  toString version.toNat ++ "\n"

/-- A directory and a database alike: they stand for the same rows, and the
version file says what the version row says. -/
structure AlikeDisk
    (dir : JsonDir)
    (file : SqliteFile)
    (maps : RowMaps Value) : Prop where
  rows : dir.StandsFor maps
  tables : SqliteBackend.StandsFor file maps
  stable : AllStable maps
  clear : Clear maps
  recorded :
    ∃ recorded : Option UInt32,
      dir.version = recorded.map versionText ∧
        SqliteBackend.versionRow file =
          recorded.map SqliteBackend.encodeVersion

structure Alike
    (json : JsonBackend Value)
    (sqlite : SqliteBackend)
    (maps : RowMaps Value) : Prop where
  disk : AlikeDisk json.dir sqlite.file maps
  dbVersion : json.dbVersion = sqlite.dbVersion
  stamped : json.stamped = sqlite.stamped

variable {json : JsonBackend Value} {sqlite : SqliteBackend}
variable {maps : RowMaps Value} {store : String}

theorem fresh_alike :
    AlikeDisk (⟨none, ∅⟩ : JsonDir) (∅ : SqliteFile)
      (fun _ => (∅ : BTreeMap String Value)) where
  rows store _ := by
    rw [JsonDir.rows]
    simp
  tables store _ key _ := by
    simp [SqliteBackend.rowAt, SqliteBackend.table, Reads]
  stable store key value present := by
    simp at present
  clear _ _ _ := by simp
  recorded := by
    refine ⟨none, rfl, ?_⟩
    simp [SqliteBackend.versionRow, SqliteBackend.rowAt, SqliteBackend.table]

theorem Alike.stamp
    (alike : Alike json sqlite maps) :
    Alike json.stamp
      { file :=
          SqliteBackend.stampFile sqlite.stamped sqlite.dbVersion sqlite.file
        dbVersion := sqlite.dbVersion
        stamped := true }
      maps where
  disk :=
    { rows := JsonBackend.stamp_standsFor alike.disk.rows
      tables := alike.disk.tables.stampFile _ _
      stable := alike.disk.stable
      clear := alike.disk.clear
      recorded := by
        obtain ⟨recorded, version, row⟩ := alike.disk.recorded
        rw [SqliteBackend.versionRow_stampFile, JsonBackend.stamp,
          alike.stamped, ← alike.dbVersion]
        cases sqlite.stamped with
        | true => exact ⟨recorded, version, row⟩
        | false => exact ⟨some json.dbVersion, rfl, rfl⟩ }
  dbVersion := by
    rw [← alike.dbVersion, JsonBackend.stamp]
    split <;> rfl
  stamped := by
    rw [JsonBackend.stamp]
    split
    case isTrue stamped => exact stamped
    case isFalse => rfl

theorem Alike.create
    (alike : Alike json sqlite maps)
    (store : String) :
    Alike json
      { sqlite with
        file := SqliteBackend.createStoreTableMaybe store sqlite.file }
      maps where
  disk :=
    { alike.disk with
      tables := alike.disk.tables.create store
      recorded := by
        obtain ⟨recorded, version, row⟩ := alike.disk.recorded
        refine ⟨recorded, version, ?_⟩
        rw [SqliteBackend.versionRow_create]
        exact row }
  dbVersion := alike.dbVersion
  stamped := alike.stamped

variable {rows : BTreeMap String Value} {inserts : List (String × Bytes)}
variable {key : String}

theorem Alike.write
    [LawfulSerdeJson Value]
    (alike : Alike json sqlite maps)
    {file : SqliteFile}
    (stable : AllStable (Function.update maps store rows))
    (clear : Clear (Function.update maps store rows))
    (tables :
      SqliteBackend.StandsFor file (Function.update maps store rows))
    (version :
      SqliteBackend.versionRow file =
        SqliteBackend.versionRow sqlite.file) :
    Alike (json.write store rows) { sqlite with file := file }
      (Function.update maps store rows) where
  disk :=
    { rows := JsonBackend.write_standsFor alike.disk.rows stable
      tables := tables
      stable := stable
      clear := clear
      recorded := by
        obtain ⟨recorded, text, row⟩ := alike.disk.recorded
        exact ⟨recorded, text, version.trans row⟩ }
  dbVersion := alike.dbVersion
  stamped := alike.stamped

theorem Alike.putRow
    [LawfulSerdeJson Value]
    (alike : Alike json sqlite maps)
    (known : store ∈ knownStores)
    (free : ¬ Reserved store key)
    {bytes : Bytes}
    {value : Value}
    (decoded : SerdeJson.fromSlice bytes = some value)
    (survives : Stable key value) :
    ∃ json' sqlite',
      json.putRow store key bytes = .ok () json' ∧
        sqlite.putRow store key bytes = .ok () sqlite' ∧
        Alike json' sqlite' (maps.put store key value) := by
  refine
    ⟨_, _, JsonBackend.putRow_eq alike.disk.rows known key decoded,
      SqliteBackend.putRow_eq known key bytes, ?_⟩
  have stamped := (alike.create store).stamp
  apply stamped.write
  · exact alike.disk.stable.put survives
  · exact alike.disk.clear.put free value
  · exact stamped.disk.tables.insertRow store key decoded
  · exact SqliteBackend.versionRow_insertRow free bytes _

theorem Alike.deleteRow
    [LawfulSerdeJson Value]
    (alike : Alike json sqlite maps)
    (known : store ∈ knownStores)
    (free : ¬ Reserved store key) :
    ∃ json' sqlite',
      json.deleteRow store key = .ok () json' ∧
        sqlite.deleteRow store key = .ok () sqlite' ∧
        Alike json' sqlite' (maps.delete store key) := by
  refine
    ⟨_, _, JsonBackend.deleteRow_eq alike.disk.rows known key,
      SqliteBackend.deleteRow_eq known key, ?_⟩
  have created := alike.create store
  have written :=
    created.write (alike.disk.stable.delete store key)
      (alike.disk.clear.delete store key)
      (created.disk.tables.removeRow store key)
      (SqliteBackend.versionRow_removeRow free _)
  split
  case isTrue =>
    exact written
  case isFalse absent =>
    -- The JSON backend writes nothing: the row was not there.
    have same : (maps store).erase key = maps store := by
      apply Std.ExtTreeMap.ext_getElem?
      intro query
      rw [BTreeMap.getElem?_erase_eq]
      split
      case isTrue here =>
        rw [← here]
        exact (Option.not_isSome_iff_eq_none.mp absent).symm
      case isFalse => rfl
    have unchanged : maps.delete store key = maps := by
      rw [RowMaps.delete, same, Function.update_eq_self]
    rw [unchanged]
    exact
      { written with
        disk :=
          { rows := alike.disk.rows
            tables := by
              rw [← unchanged]
              exact written.disk.tables
            stable := alike.disk.stable
            clear := alike.disk.clear
            recorded := written.disk.recorded } }

theorem decoded_of_writable
    (free : ∀ row ∈ inserts, ¬ Reserved store row.1)
    (writable : ∀ row ∈ inserts, Writable Value row.1 row.2) :
    ∃ values : List (String × Value),
      Decoded inserts values ∧
        ∀ row ∈ values, ¬ Reserved store row.1 ∧ Stable row.1 row.2 := by
  induction inserts with
  | nil =>
      exact ⟨[], .nil, nofun⟩
  | cons row later inductionHypothesis =>
      obtain ⟨value, decoded, survives⟩ := writable row List.mem_cons_self
      obtain ⟨values, decodes, survive⟩ :=
        inductionHypothesis
          (fun other member => free other (List.mem_cons_of_mem _ member))
          (fun other member => writable other (List.mem_cons_of_mem _ member))
      refine ⟨(row.1, value) :: values, .cons ⟨rfl, decoded⟩ decodes, ?_⟩
      intro other member
      rcases List.mem_cons.mp member with rfl | member
      · exact ⟨free row List.mem_cons_self, survives⟩
      · exact survive other member

theorem Alike.flushBatch
    [LawfulSerdeJson Value]
    (alike : Alike json sqlite maps)
    (known : store ∈ knownStores)
    {values : List (String × Value)}
    {removed : List String}
    (freeInserts : ∀ row ∈ inserts, ¬ Reserved store row.1)
    (freeRemoved : ∀ key ∈ removed, ¬ Reserved store key)
    (freeValues : ∀ row ∈ values, ¬ Reserved store row.1)
    (decoded : Decoded inserts values)
    (survive : ∀ row ∈ values, Stable row.1 row.2) :
    ∃ json' sqlite',
      json.flushBatch store inserts removed = .ok () json' ∧
        sqlite.flushBatch store inserts removed = .ok () sqlite' ∧
        Alike json' sqlite'
          ((maps.deleteAll store removed).putAll store values) := by
  refine
    ⟨_, _, JsonBackend.flushBatch_eq alike.disk.rows known decoded removed,
      SqliteBackend.flushBatch_eq known freeInserts freeRemoved, ?_⟩
  have stamped := (alike.create store).stamp
  have batch := maps.batch_eq store removed values
  rw [batch]
  apply stamped.write
  · rw [← batch]
    exact (alike.disk.stable.deleteAll store removed).putAll store survive
  · rw [← batch]
    exact (alike.disk.clear.deleteAll store removed).putAll freeValues
  · rw [← batch]
    exact (stamped.disk.tables.removeRows store removed).insertRows store decoded
  · exact SqliteBackend.versionRow_batchFile freeInserts freeRemoved _

def SameValue (Value : Type) [SerdeJson Value] (left right : Bytes) : Prop :=
  ∃ value : Value,
    SerdeJson.fromSlice left = some value ∧
      SerdeJson.fromSlice right = some value

/-- Replies that agree: both fail, or both succeed with the same keys and the
same values. -/
inductive RepliesAgree (Value : Type) [SerdeJson Value] :
    RowReply → RowReply → Prop where
  | done : RepliesAgree Value .done .done
  | failed (left right : RowError) :
      RepliesAgree Value (.failed left) (.failed right)
  | absent : RepliesAgree Value (.row none) (.row none)
  | row
      {left right : Bytes}
      (same : SameValue Value left right) :
      RepliesAgree Value (.row (some left)) (.row (some right))
  | rows
      {left right : List (String × Bytes)}
      (same :
        List.Forall₂
          (fun left right =>
            left.1 = right.1 ∧ SameValue Value left.2 right.2)
          left right) :
      RepliesAgree Value (.rows left) (.rows right)

theorem RepliesAgree.of_reads
    {value : Option Value}
    {left right : Option Bytes}
    (readsLeft : Reads value left)
    (readsRight : Reads value right) :
    RepliesAgree Value (.row left) (.row right) := by
  cases value with
  | none =>
      cases left <;> cases right
      case none.none => exact .absent
      case none.some => exact readsRight.elim
      case some.none => exact readsLeft.elim
      case some.some => exact readsLeft.elim
  | some found =>
      cases left <;> cases right
      case none.none => exact .absent
      case none.some => exact readsLeft.elim
      case some.none => exact readsRight.elim
      case some.some => exact .row ⟨found, readsLeft, readsRight⟩

theorem Alike.readsJson
    (alike : Alike json sqlite maps)
    (store key : String) :
    Reads (maps store)[key]? ((maps store)[key]?.map SerdeJson.toVec) := by
  cases value : (maps store)[key]? with
  | none => trivial
  | some found => exact (alike.disk.stable store key found value).1

theorem Alike.reads
    (alike : Alike json sqlite maps)
    (known : store ∈ knownStores)
    (visible :
      Reserved store key → SqliteBackend.versionRow sqlite.file = none) :
    Reads (maps store)[key]? (SqliteBackend.rowAt sqlite.file store key) := by
  by_cases reserved : Reserved store key
  · have absent := visible reserved
    rw [alike.disk.clear store key reserved]
    obtain ⟨rfl, rfl⟩ := reserved
    rw [SqliteBackend.versionRow] at absent
    rw [absent]
    trivial
  · exact alike.disk.tables store known key reserved

theorem Alike.getRow
    (alike : Alike json sqlite maps)
    (known : store ∈ knownStores)
    (key : String)
    (visible :
      Reserved store key → SqliteBackend.versionRow sqlite.file = none) :
    ∃ left right sqlite',
      json.getRow store key = .ok left json ∧
        sqlite.getRow store key = .ok right sqlite' ∧
        RepliesAgree Value (.row left) (.row right) ∧
        Alike json sqlite' maps :=
  ⟨_, _, _, JsonBackend.getRow_eq alike.disk.rows known key,
    SqliteBackend.getRow_eq known key,
    .of_reads (alike.readsJson store key) (alike.reads known visible),
    alike.create store⟩

theorem rows_agree
    {table : BTreeMap String Bytes}
    (stable :
      ∀ (key : String) (value : Value), rows[key]? = some value →
        SerdeJson.fromSlice (SerdeJson.toVec value) = some value)
    (reads : ∀ key : String, Reads rows[key]? table[key]?) :
    List.Forall₂
      (fun (left right : String × Bytes) =>
        left.1 = right.1 ∧ SameValue Value left.2 right.2)
      (rows.toList.map fun row => (row.1, SerdeJson.toVec row.2))
      table.toList := by
  have same :
      rows.map (fun _ value => some value) =
        table.map fun _ bytes => (SerdeJson.fromSlice bytes : Option Value) := by
    apply Std.ExtTreeMap.ext_getElem?
    intro key
    have here := reads key
    rw [Std.ExtTreeMap.getElem?_map, Std.ExtTreeMap.getElem?_map]
    cases value : rows[key]? <;> cases bytes : table[key]? <;>
      rw [value, bytes] at here
    · rfl
    · cases here
    · cases here
    · exact congrArg some here.symm
  have lists := congrArg Std.ExtTreeMap.toList same
  rw [Std.ExtTreeMap.toList_map, Std.ExtTreeMap.toList_map] at lists
  rw [List.forall₂_map_left_iff]
  have members :
      ∀ row ∈ rows.toList,
        SerdeJson.fromSlice (SerdeJson.toVec row.2) = some row.2 := by
    intro row member
    exact
      stable row.1 row.2
        (Std.ExtTreeMap.mem_toList_iff_getElem?_eq_some.mp member)
  generalize table.toList = right at lists
  generalize rows.toList = left at lists members
  induction left generalizing right with
  | nil =>
      cases right with
      | nil => exact .nil
      | cons head rest => cases lists
  | cons row later inductionHypothesis =>
      cases right with
      | nil => cases lists
      | cons head rest =>
          rw [List.map_cons, List.map_cons, List.cons.injEq,
            Prod.mk.injEq] at lists
          refine .cons ⟨lists.1.1, row.2, ?_, lists.1.2.symm⟩ ?_
          · exact members row List.mem_cons_self
          · exact
              inductionHypothesis rest lists.2 fun other member =>
                members other (List.mem_cons_of_mem _ member)

/-- `get_rows` returns the same keys in the same order, with one value each. -/
theorem Alike.getRows
    (alike : Alike json sqlite maps)
    (known : store ∈ knownStores)
    (visible :
      store = accountStoreKey →
        SqliteBackend.versionRow sqlite.file = none) :
    ∃ left right sqlite',
      json.getRows store = .ok left json ∧
        sqlite.getRows store = .ok right sqlite' ∧
        RepliesAgree Value (.rows left) (.rows right) ∧
        Alike json sqlite' maps := by
  refine
    ⟨_, _, _, JsonBackend.getRows_eq alike.disk.rows known,
      SqliteBackend.getRows_eq known, ?_, alike.create store⟩
  refine .rows (rows_agree ?_ ?_)
  · intro key value present
    exact (alike.disk.stable store key value present).1
  · intro key
    exact alike.reads known fun reserved => visible reserved.1

end Bwk.RowBackends
