import Bwk.RowModel
import Bwk.Triples

namespace Bwk.RowBackends

open Bwk.HeaderFile

set_option linter.unusedSectionVars false

/-!
# Each backend keeps the rows it stands for

One lemma an operation: from a backend that stands for some rows it returns
what the rows say, and stands for the rows it leaves.
-/

variable {Value : Type}

section Json

variable [SerdeJson Value]

/-- The values that raw rows decode to. -/
abbrev Decoded
    (inserts : List (String × Bytes))
    (values : List (String × Value)) : Prop :=
  List.Forall₂
    (fun insert value =>
      insert.1 = value.1 ∧ SerdeJson.fromSlice insert.2 = some value.2)
    inserts values

namespace JsonDir

def rows (dir : JsonDir) (store : String) : Option (BTreeMap String Value) :=
  match dir.files[store]? with
  | none => some ∅
  | some bytes => SerdeJson.rowsFromSlice bytes

/-- A directory with the file of one store replaced. -/
def write
    (dir : JsonDir)
    (store : String)
    (rows : BTreeMap String Value) : JsonDir :=
  { dir with
    files := dir.files.insert store (SerdeJson.rowsToVecPretty rows) }

/-- The known stores of a directory read as the given rows. -/
def StandsFor (dir : JsonDir) (maps : RowMaps Value) : Prop :=
  ∀ store ∈ knownStores, dir.rows store = some (maps store)

theorem StandsFor.write
    [LawfulSerdeJson Value]
    {dir : JsonDir}
    {maps : RowMaps Value}
    (stands : dir.StandsFor maps)
    {store : String}
    {rows : BTreeMap String Value}
    (stable : AllStable (Function.update maps store rows)) :
    (dir.write store rows).StandsFor (Function.update maps store rows) := by
  intro other known
  rw [JsonDir.rows, JsonDir.write, BTreeMap.getElem?_insert_eq]
  by_cases same : store = other
  · subst same
    rw [if_pos rfl, Function.update_self]
    apply LawfulSerdeJson.rows_of_each
    intro key value present
    rw [← Function.update_self store rows maps] at present
    exact (stable store key value present).2
  · rw [if_neg same, Function.update_of_ne (Ne.symm same)]
    exact stands other known

end JsonDir

namespace JsonBackend

variable {backend : JsonBackend Value} {maps : RowMaps Value}

/-- The backend once its version file is written. -/
def stamp (backend : JsonBackend Value) : JsonBackend Value :=
  if backend.stamped then
    backend
  else
    { backend with
      dir :=
        { backend.dir with
          version := some (toString backend.dbVersion.toNat ++ "\n") }
      stamped := true }

/-- The backend once the file of a store is replaced. -/
def write
    (backend : JsonBackend Value)
    (store : String)
    (rows : BTreeMap String Value) : JsonBackend Value :=
  { backend with dir := backend.dir.write store rows }

theorem stampVersionIfNeeded_eq :
    stampVersionIfNeeded backend = .ok () backend.stamp := by
  rw [stampVersionIfNeeded, get_bind_apply, stamp]
  cases backend.stamped <;> rfl

theorem stamp_files : backend.stamp.dir.files = backend.dir.files := by
  rw [stamp]
  split <;> rfl

theorem stamp_standsFor (stands : backend.dir.StandsFor maps) :
    backend.stamp.dir.StandsFor maps := by
  intro store known
  rw [JsonDir.rows, stamp_files]
  exact stands store known

variable {store : String}

theorem readStore_eq
    (stands : backend.dir.StandsFor maps)
    (known : store ∈ knownStores) :
    readStore store backend = .ok (maps store) backend := by
  have reads := stands store known
  rw [JsonDir.rows] at reads
  rw [readStore, get_bind_apply]
  cases file : backend.dir.files[store]? with
  | none =>
      rw [file] at reads
      rw [← Option.some.inj reads]
      rfl
  | some bytes =>
      simp only [file] at reads
      simp only [reads]
      rfl

theorem getRow_eq
    (stands : backend.dir.StandsFor maps)
    (known : store ∈ knownStores)
    (key : String) :
    getRow store key backend =
      .ok ((maps store)[key]?.map SerdeJson.toVec) backend := by
  rw [getRow, bind_apply_ok (validate_known known backend),
    bind_apply_ok (readStore_eq stands known)]
  rfl

theorem getRows_eq
    (stands : backend.dir.StandsFor maps)
    (known : store ∈ knownStores) :
    getRows store backend =
      .ok ((maps store).toList.map fun row => (row.1, SerdeJson.toVec row.2))
        backend := by
  rw [getRows, bind_apply_ok (validate_known known backend),
    bind_apply_ok (readStore_eq stands known)]
  rfl

theorem putRow_eq
    (stands : backend.dir.StandsFor maps)
    (known : store ∈ knownStores)
    (key : String)
    {bytes : Bytes}
    {value : Value}
    (decoded : SerdeJson.fromSlice bytes = some value) :
    putRow store key bytes backend =
      .ok () (backend.stamp.write store ((maps store).insert key value)) := by
  have decodes : decodeValue bytes backend = .ok value backend := by
    rw [decodeValue, decoded]
    rfl
  rw [putRow, bind_apply_ok (validate_known known backend),
    bind_apply_ok decodes, bind_apply_ok (readStore_eq stands known),
    bind_apply_ok stampVersionIfNeeded_eq]
  rfl

theorem deleteRow_eq
    (stands : backend.dir.StandsFor maps)
    (known : store ∈ knownStores)
    (key : String) :
    deleteRow store key backend =
      .ok ()
        (if (maps store)[key]?.isSome then
          backend.write store ((maps store).erase key)
        else
          backend) := by
  rw [deleteRow, bind_apply_ok (validate_known known backend),
    bind_apply_ok (readStore_eq stands known)]
  split <;> rfl

variable {inserts : List (String × Bytes)} {values : List (String × Value)}

theorem insertDecoded_eq
    (rows : BTreeMap String Value)
    (decoded : Decoded inserts values) :
    insertDecoded rows inserts backend =
      .ok (rows.insertAll values) backend := by
  induction decoded generalizing rows with
  | nil =>
      rfl
  | @cons insert value later values here _ inductionHypothesis =>
      obtain ⟨key, bytes⟩ := insert
      obtain ⟨rfl, decodes⟩ := here
      have decoded : decodeValue bytes backend = .ok value.2 backend := by
        rw [decodeValue, decodes]
        rfl
      rw [insertDecoded, bind_apply_ok decoded, inductionHypothesis]
      rfl

theorem flushBatch_eq
    (stands : backend.dir.StandsFor maps)
    (known : store ∈ knownStores)
    (decoded : Decoded inserts values)
    (removed : List String) :
    flushBatch store inserts removed backend =
      .ok ()
        (backend.stamp.write store
          (((maps store).eraseAll removed).insertAll values)) := by
  rw [flushBatch, bind_apply_ok (validate_known known backend),
    bind_apply_ok (readStore_eq stands known),
    bind_apply_ok (insertDecoded_eq _ decoded),
    bind_apply_ok stampVersionIfNeeded_eq]
  rfl

theorem write_standsFor
    [LawfulSerdeJson Value]
    (stands : backend.dir.StandsFor maps)
    {rows : BTreeMap String Value}
    (stable : AllStable (Function.update maps store rows)) :
    (backend.write store rows).dir.StandsFor
      (Function.update maps store rows) :=
  JsonDir.StandsFor.write stands stable

end JsonBackend

end Json

def Reads [SerdeJson Value] (value : Option Value) (bytes : Option Bytes) :
    Prop :=
  match value, bytes with
  | none, none => True
  | some value, some bytes => SerdeJson.fromSlice bytes = some value
  | _, _ => False

namespace SqliteBackend

def rowAt (file : SqliteFile) (store key : String) : Option Bytes :=
  (table file store)[key]?

@[simp] theorem rowAt_create
    (file : SqliteFile)
    (created store key : String) :
    rowAt (createStoreTableMaybe created file) store key =
      rowAt file store key := by
  rw [rowAt, table, createStoreTableMaybe, BTreeMap.getElem?_insert_eq]
  split
  case isTrue same =>
    rw [same]
    rfl
  case isFalse =>
    rfl

theorem rowAt_insertRow
    (file : SqliteFile)
    (store key : String)
    (bytes : Bytes)
    (other query : String) :
    rowAt (insertRow store key bytes file) other query =
      if store = other ∧ key = query then some bytes
      else rowAt file other query := by
  rw [rowAt, table, insertRow, BTreeMap.getElem?_insert_eq]
  by_cases same : store = other
  · subst same
    rw [if_pos rfl, Option.getD_some, BTreeMap.getElem?_insert_eq]
    simp only [true_and]
    rfl
  · rw [if_neg same, if_neg fun both => same both.1]
    rfl

theorem rowAt_removeRow
    (file : SqliteFile)
    (store key other query : String) :
    rowAt (removeRow store key file) other query =
      if store = other ∧ key = query then none
      else rowAt file other query := by
  rw [rowAt, table, removeRow, BTreeMap.getElem?_insert_eq]
  by_cases same : store = other
  · subst same
    rw [if_pos rfl, Option.getD_some, BTreeMap.getElem?_erase_eq]
    simp only [true_and]
    rfl
  · rw [if_neg same, if_neg fun both => same both.1]
    rfl

/-- The file once the version row is written. -/
def stampFile
    (stamped : Bool)
    (dbVersion : UInt32)
    (file : SqliteFile) : SqliteFile :=
  if stamped then
    file
  else
    insertRow accountStoreKey versionRowKey (encodeVersion dbVersion) file

theorem stampIfNeeded_eq
    (stamped : Bool)
    (dbVersion : UInt32)
    (file : SqliteFile) :
    stampIfNeeded stamped dbVersion file =
      .ok () (stampFile stamped dbVersion file) := by
  cases stamped <;> rfl

variable {body : EStateM RowError SqliteFile Unit}

theorem transaction_ok
    {backend : SqliteBackend}
    {file : SqliteFile}
    (returns : body backend.file = .ok () file) :
    transaction body backend = .ok () { backend with file := file } := by
  rw [transaction, get_bind_apply, returns]
  rfl

theorem transaction_error
    {backend : SqliteBackend}
    {reason : RowError}
    {file : SqliteFile}
    (fails : body backend.file = .error reason file) :
    transaction body backend = .error reason backend := by
  rw [transaction, get_bind_apply, fails]
  rfl

variable {backend : SqliteBackend} {store : String}

theorem getRow_eq
    (known : store ∈ knownStores)
    (key : String) :
    getRow store key backend =
      .ok (rowAt backend.file store key)
        { backend with file := createStoreTableMaybe store backend.file } := by
  rw [getRow, bind_apply_ok (validate_known known backend)]
  rw [← rowAt_create backend.file store store key]
  rfl

theorem getRows_eq (known : store ∈ knownStores) :
    getRows store backend =
      .ok (table backend.file store).toList
        { backend with file := createStoreTableMaybe store backend.file } := by
  have same :
      table (createStoreTableMaybe store backend.file) store =
        table backend.file store := by
    apply Std.ExtTreeMap.ext_getElem?
    exact rowAt_create backend.file store store
  rw [getRows, bind_apply_ok (validate_known known backend), ← same]
  rfl

theorem putRow_eq
    (known : store ∈ knownStores)
    (key : String)
    (bytes : Bytes) :
    putRow store key bytes backend =
      .ok ()
        { file :=
            insertRow store key bytes
              (stampFile backend.stamped backend.dbVersion
                (createStoreTableMaybe store backend.file))
          dbVersion := backend.dbVersion
          stamped := true } := by
  rw [putRow, bind_apply_ok (validate_known known backend), get_bind_apply]
  rw [bind_apply_ok (show createTable store backend = .ok () _ from rfl)]
  rw [bind_apply_ok (transaction_ok (by
    rw [bind_apply_ok (stampIfNeeded_eq _ _ _)]
    rfl))]
  rfl

theorem deleteRow_eq
    (known : store ∈ knownStores)
    (key : String) :
    deleteRow store key backend =
      .ok ()
        { backend with
          file :=
            removeRow store key
              (createStoreTableMaybe store backend.file) } := by
  rw [deleteRow, bind_apply_ok (validate_known known backend)]
  rfl

theorem removeRows_eq
    {keys : List String}
    (free : ∀ key ∈ keys, ¬ Reserved store key)
    (file : SqliteFile) :
    removeRows store keys file =
      .ok () (keys.foldl (fun file key => removeRow store key file) file) := by
  induction keys generalizing file with
  | nil =>
      rfl
  | cons key later inductionHypothesis =>
      rw [removeRows, if_neg (free key List.mem_cons_self)]
      exact
        inductionHypothesis
          (fun other member => free other (List.mem_cons_of_mem _ member)) _

variable {inserts : List (String × Bytes)}

theorem insertRows_eq
    (free : ∀ row ∈ inserts, ¬ Reserved store row.1)
    (file : SqliteFile) :
    insertRows store inserts file =
      .ok ()
        (inserts.foldl (fun file row => insertRow store row.1 row.2 file)
          file) := by
  induction inserts generalizing file with
  | nil =>
      rfl
  | cons row later inductionHypothesis =>
      rw [insertRows, if_neg (free row List.mem_cons_self)]
      exact
        inductionHypothesis
          (fun other member => free other (List.mem_cons_of_mem _ member)) _

def batchFile
    (store : String)
    (inserts : List (String × Bytes))
    (removed : List String)
    (file : SqliteFile) : SqliteFile :=
  inserts.foldl (fun file row => insertRow store row.1 row.2 file)
    (removed.foldl (fun file key => removeRow store key file) file)

theorem flushBatch_eq
    (known : store ∈ knownStores)
    {removed : List String}
    (freeInserts : ∀ row ∈ inserts, ¬ Reserved store row.1)
    (freeRemoved : ∀ key ∈ removed, ¬ Reserved store key) :
    flushBatch store inserts removed backend =
      .ok ()
        { file :=
            batchFile store inserts removed
              (stampFile backend.stamped backend.dbVersion
                (createStoreTableMaybe store backend.file))
          dbVersion := backend.dbVersion
          stamped := true } := by
  rw [flushBatch, bind_apply_ok (validate_known known backend), get_bind_apply]
  rw [bind_apply_ok (show createTable store backend = .ok () _ from rfl)]
  rw [bind_apply_ok (transaction_ok (by
    rw [bind_apply_ok (stampIfNeeded_eq _ _ _),
      bind_apply_ok (removeRows_eq freeRemoved _),
      insertRows_eq freeInserts]))]
  rfl

section StandsFor

variable [SerdeJson Value] {maps : RowMaps Value} {file : SqliteFile}

/-- The tables of the known stores read as the given rows, in every row but the
reserved one. -/
def StandsFor (file : SqliteFile) (maps : RowMaps Value) : Prop :=
  ∀ store ∈ knownStores, ∀ key, ¬ Reserved store key →
    Reads (maps store)[key]? (rowAt file store key)

/-- Files with the same rows stand for the same, whatever the reserved row
holds. -/
theorem StandsFor.of_same
    (stands : StandsFor file maps)
    {file' : SqliteFile}
    (same :
      ∀ store key, ¬ Reserved store key →
        rowAt file' store key = rowAt file store key) :
    StandsFor file' maps := by
  intro store known key free
  rw [same store key free]
  exact stands store known key free

theorem StandsFor.insertRow
    (stands : StandsFor file maps)
    (store key : String)
    {bytes : Bytes}
    {value : Value}
    (decoded : SerdeJson.fromSlice bytes = some value) :
    StandsFor (insertRow store key bytes file) (maps.put store key value) := by
  intro other known query free
  have before := stands other known query free
  rw [rowAt_insertRow, RowMaps.put]
  by_cases same : store = other
  · subst same
    rw [Function.update_self, BTreeMap.getElem?_insert_eq]
    by_cases here : key = query
    · rw [if_pos here, if_pos ⟨rfl, here⟩]
      exact decoded
    · rw [if_neg here, if_neg fun both => here both.2]
      exact before
  · rw [Function.update_of_ne (Ne.symm same), if_neg fun both => same both.1]
    exact before

theorem StandsFor.removeRow
    (stands : StandsFor file maps)
    (store key : String) :
    StandsFor (removeRow store key file) (maps.delete store key) := by
  intro other known query free
  have before := stands other known query free
  rw [rowAt_removeRow, RowMaps.delete]
  by_cases same : store = other
  · subst same
    rw [Function.update_self, BTreeMap.getElem?_erase_eq]
    by_cases here : key = query
    · rw [if_pos here, if_pos ⟨rfl, here⟩]
      trivial
    · rw [if_neg here, if_neg fun both => here both.2]
      exact before
  · rw [Function.update_of_ne (Ne.symm same), if_neg fun both => same both.1]
    exact before

theorem StandsFor.removeRows
    (stands : StandsFor file maps)
    (store : String)
    (keys : List String) :
    StandsFor (keys.foldl (fun file key => SqliteBackend.removeRow store key
      file) file) (maps.deleteAll store keys) := by
  induction keys generalizing file maps with
  | nil => exact stands
  | cons key later inductionHypothesis =>
      exact inductionHypothesis (stands.removeRow store key)

theorem StandsFor.insertRows
    (stands : StandsFor file maps)
    (store : String)
    {values : List (String × Value)}
    (decoded : Decoded inserts values) :
    StandsFor (inserts.foldl (fun file row => SqliteBackend.insertRow store
      row.1 row.2 file) file) (maps.putAll store values) := by
  induction decoded generalizing file maps with
  | nil => exact stands
  | @cons insert value _ _ here _ inductionHypothesis =>
      obtain ⟨key, bytes⟩ := insert
      obtain ⟨rfl, decodes⟩ := here
      exact inductionHypothesis (stands.insertRow store value.1 decodes)

theorem StandsFor.stampFile
    (stands : StandsFor file maps)
    (stamped : Bool)
    (dbVersion : UInt32) :
    StandsFor (stampFile stamped dbVersion file) maps := by
  apply stands.of_same
  intro store key free
  rw [SqliteBackend.stampFile]
  split
  · rfl
  · rw [rowAt_insertRow, if_neg]
    rintro ⟨rfl, rfl⟩
    exact free ⟨rfl, rfl⟩

theorem StandsFor.create
    (stands : StandsFor file maps)
    (store : String) :
    StandsFor (createStoreTableMaybe store file) maps :=
  stands.of_same fun _ _ _ => rowAt_create file store _ _

end StandsFor

def versionRow (file : SqliteFile) : Option Bytes :=
  rowAt file accountStoreKey versionRowKey

theorem versionRow_create (file : SqliteFile) (store : String) :
    versionRow (createStoreTableMaybe store file) = versionRow file :=
  rowAt_create file store _ _

variable {key : String}

theorem versionRow_insertRow
    (free : ¬ Reserved store key)
    (bytes : Bytes)
    (file : SqliteFile) :
    versionRow (insertRow store key bytes file) = versionRow file := by
  rw [versionRow, rowAt_insertRow, if_neg]
  · rfl
  · exact free

theorem versionRow_removeRow
    (free : ¬ Reserved store key)
    (file : SqliteFile) :
    versionRow (removeRow store key file) = versionRow file := by
  rw [versionRow, rowAt_removeRow, if_neg]
  · rfl
  · exact free

theorem versionRow_batchFile
    {removed : List String}
    (freeInserts : ∀ row ∈ inserts, ¬ Reserved store row.1)
    (freeRemoved : ∀ key ∈ removed, ¬ Reserved store key)
    (file : SqliteFile) :
    versionRow (batchFile store inserts removed file) = versionRow file := by
  have deletes :
      ∀ file,
        versionRow
            (removed.foldl (fun file key => removeRow store key file) file) =
          versionRow file := by
    intro file
    induction removed generalizing file with
    | nil => rfl
    | cons key later inductionHypothesis =>
        rw [List.foldl_cons, inductionHypothesis fun other member =>
          freeRemoved other (List.mem_cons_of_mem _ member)]
        exact versionRow_removeRow (freeRemoved key List.mem_cons_self) file
  have puts :
      ∀ file,
        versionRow
            (inserts.foldl (fun file row => insertRow store row.1 row.2 file)
              file) =
          versionRow file := by
    intro file
    induction inserts generalizing file with
    | nil => rfl
    | cons row later inductionHypothesis =>
        rw [List.foldl_cons, inductionHypothesis fun other member =>
          freeInserts other (List.mem_cons_of_mem _ member)]
        exact
          versionRow_insertRow (freeInserts row List.mem_cons_self) row.2 file
  rw [batchFile, puts, deletes]

theorem versionRow_stampFile
    (stamped : Bool)
    (dbVersion : UInt32)
    (file : SqliteFile) :
    versionRow (stampFile stamped dbVersion file) =
      if stamped then versionRow file else some (encodeVersion dbVersion) := by
  rw [stampFile]
  cases stamped with
  | true => rfl
  | false =>
      rw [versionRow, if_neg Bool.false_ne_true, if_neg Bool.false_ne_true,
        rowAt_insertRow, if_pos ⟨rfl, rfl⟩]

end SqliteBackend

end Bwk.RowBackends
