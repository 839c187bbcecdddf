import Bwk.HeaderFile
import Bwk.Transitions

namespace Bwk.RowBackends

open Bwk.HeaderFile

/-!
# The JSON and the SQLite backend

`persist/src/backend/json.rs` and `persist/src/backend/sqlite.rs`, from opening
to closing.  One keeps its version in a file of its own, the other in a row of
the account store.  The file system and the database are taken to work: a
rename and a transaction happen as a whole or not at all.
-/

def accountStoreKey : String := "account"

/-- The row of the account store that SQLite stamps with the version. -/
def versionRowKey : String := "version"

/-- The logical store names. -/
def knownStores : List String :=
  [accountStoreKey, "transactions.v2", "labels", "statuses", "coins", "txs",
    "block_hashes", "signers", "headers"]

/-- How an operation of a backend fails. -/
inductive RowError where
  | serde
  | sqlite
  | unknownStore (found : String)
  | dbVersionTooNew (found maxSupported : Nat)
  | alreadyOpen
  deriving Repr, DecidableEq

/-- What is used of `serde_json`: reading and writing one value, and an object
of values. -/
class SerdeJson (Value : Type) where
  fromSlice : Bytes → Option Value
  toVec : Value → Bytes
  rowsFromSlice : Bytes → Option (BTreeMap String Value)
  rowsToVecPretty : BTreeMap String Value → Bytes

def validateStoreName {σ : Type} (store : String) : EStateM RowError σ Unit :=
  if store ∈ knownStores then pure () else throw (.unknownStore store)

/-- A row the SQLite backend keeps for itself. -/
def Reserved (store key : String) : Prop :=
  store = accountStoreKey ∧ key = versionRowKey

instance (store key : String) : Decidable (Reserved store key) :=
  inferInstanceAs (Decidable (_ ∧ _))

section Json

/-- The directory of a JSON backend: its version file and its store files. -/
structure JsonDir where
  version : Option String
  files : BTreeMap String Bytes

/-- An open JSON backend of a binary with the given `DB_VERSION`, over the
values of a JSON library. -/
structure JsonBackend (Value : Type) where
  dir : JsonDir
  dbVersion : UInt32
  stamped : Bool

variable {Value : Type} [SerdeJson Value]

/-- `str::trim`. -/
def trim (text : String) : String :=
  String.ofList
    ((text.toList.dropWhile Char.isWhitespace).reverse.dropWhile
      Char.isWhitespace).reverse

namespace JsonBackend

/-- The version recorded in a directory, if it is not too new. -/
def checkVersion
    (dir : JsonDir)
    (dbVersion : UInt32) : Except RowError (Option Nat) :=
  match dir.version with
  | none => .ok none
  | some text =>
      match parseHeight (trim text) with
      | none => .error .serde
      | some found =>
          if found > dbVersion.toNat then
            .error (.dbVersionTooNew found dbVersion.toNat)
          else
            .ok (some found)

/-- Open a directory; a fresh one is not stamped yet. -/
def open_
    (dir : JsonDir)
    (dbVersion : UInt32) : Except RowError (JsonBackend Value) := do
  let existing ← checkVersion dir dbVersion
  return ⟨dir, dbVersion, existing = some dbVersion.toNat⟩

/-- Write the version file unless it is there. -/
def stampVersionIfNeeded : EStateM RowError (JsonBackend Value) Unit := do
  unless (← get).stamped do
    modify fun backend =>
      { backend with
        dir :=
          { backend.dir with
            version := some (toString backend.dbVersion.toNat ++ "\n") }
        stamped := true }

/-- The rows of a store; a file that is not there has none. -/
def readStore (store : String) :
    EStateM RowError (JsonBackend Value) (BTreeMap String Value) := do
  match (← get).dir.files[store]? with
  | none => return ∅
  | some bytes =>
      match SerdeJson.rowsFromSlice bytes with
      | some rows => return rows
      | none => throw .serde

/-- Replace the file of a store. -/
def writeStore (store : String) (rows : BTreeMap String Value) :
    EStateM RowError (JsonBackend Value) Unit :=
  modify fun backend =>
    { backend with
      dir :=
        { backend.dir with
          files :=
            backend.dir.files.insert store
              (SerdeJson.rowsToVecPretty rows) } }

def decodeValue (bytes : Bytes) : EStateM RowError (JsonBackend Value) Value :=
  match SerdeJson.fromSlice bytes with
  | some value => return value
  | none => throw .serde

/-- `get_row`. -/
def getRow (store key : String) :
    EStateM RowError (JsonBackend Value) (Option Bytes) := do
  validateStoreName store
  let rows : BTreeMap String Value ← readStore store
  return rows[key]?.map SerdeJson.toVec

/-- `get_rows`. -/
def getRows (store : String) :
    EStateM RowError (JsonBackend Value) (List (String × Bytes)) := do
  validateStoreName store
  let rows : BTreeMap String Value ← readStore store
  return rows.toList.map fun row => (row.1, SerdeJson.toVec row.2)

/-- `put_row`. -/
def putRow (store key : String) (bytes : Bytes) :
    EStateM RowError (JsonBackend Value) Unit := do
  validateStoreName store
  let value : Value ← decodeValue bytes
  let rows ← readStore store
  stampVersionIfNeeded
  writeStore store (rows.insert key value)

/-- `delete_row`. -/
def deleteRow (store key : String) : EStateM RowError (JsonBackend Value) Unit := do
  validateStoreName store
  let rows : BTreeMap String Value ← readStore store
  if rows[key]?.isSome then
    writeStore store (rows.erase key)

/-- The inserts of a batch, decoded one after the other. -/
def insertDecoded (rows : BTreeMap String Value) :
    List (String × Bytes) →
      EStateM RowError (JsonBackend Value) (BTreeMap String Value)
  | [] => return rows
  | (key, bytes) :: later => do
      let value ← decodeValue bytes
      insertDecoded (rows.insert key value) later

/-- `flush_batch`: one read, merge and write. -/
def flushBatch
    (store : String)
    (inserts : List (String × Bytes))
    (removed : List String) : EStateM RowError (JsonBackend Value) Unit := do
  validateStoreName store
  let rows : BTreeMap String Value ← readStore store
  let rows ← insertDecoded (rows.eraseAll removed) inserts
  stampVersionIfNeeded
  writeStore store rows

end JsonBackend

end Json

/-- The tables of a database. -/
abbrev SqliteFile := BTreeMap String (BTreeMap String Bytes)

/-- An open SQLite backend of a binary with the given `DB_VERSION`. -/
structure SqliteBackend where
  file : SqliteFile
  dbVersion : UInt32
  stamped : Bool

namespace SqliteBackend

def table (file : SqliteFile) (store : String) : BTreeMap String Bytes :=
  file[store]?.getD ∅

/-- `CREATE TABLE IF NOT EXISTS`. -/
def createStoreTableMaybe (store : String) (file : SqliteFile) : SqliteFile :=
  file.insert store (table file store)

/-- `INSERT .. ON CONFLICT DO UPDATE`. -/
def insertRow
    (store key : String)
    (bytes : Bytes)
    (file : SqliteFile) : SqliteFile :=
  file.insert store ((table file store).insert key bytes)

/-- `DELETE`. -/
def removeRow (store key : String) (file : SqliteFile) : SqliteFile :=
  file.insert store ((table file store).erase key)

def encodeVersion (version : UInt32) : Bytes :=
  toLeBytes version.toNat

def decodeVersion (bytes : Bytes) : Except RowError Nat :=
  if bytes.length = 4 then .ok (fromLeBytes bytes) else .error .serde

/-- The version recorded in a database, if it is not too new. -/
def checkVersion
    (file : SqliteFile)
    (dbVersion : UInt32) : Except RowError (Option Nat) :=
  match (table file accountStoreKey)[versionRowKey]? with
  | none => .ok none
  | some bytes => do
      let found ← decodeVersion bytes
      if found > dbVersion.toNat then
        throw (.dbVersionTooNew found dbVersion.toNat)
      else
        return some found

/-- Open a database; a fresh one is not stamped yet. -/
def open_
    (file : SqliteFile)
    (dbVersion : UInt32) : Except RowError SqliteBackend := do
  let file := createStoreTableMaybe accountStoreKey file
  let existing ← checkVersion file dbVersion
  return ⟨file, dbVersion, existing = some dbVersion.toNat⟩

def createTable (store : String) : EStateM RowError SqliteBackend Unit :=
  modify fun backend =>
    { backend with file := createStoreTableMaybe store backend.file }

def stampVersionInTx (dbVersion : UInt32) : EStateM RowError SqliteFile Unit :=
  modify (insertRow accountStoreKey versionRowKey (encodeVersion dbVersion))

/-- The stamp a mutating operation folds into its transaction. -/
def stampIfNeeded
    (stamped : Bool)
    (dbVersion : UInt32) : EStateM RowError SqliteFile Unit :=
  if stamped then return () else stampVersionInTx dbVersion

/-- Run a transaction: it commits when it returns, and is rolled back when it
fails. -/
def transaction
    (body : EStateM RowError SqliteFile Unit) :
    EStateM RowError SqliteBackend Unit := do
  let backend ← get
  match body backend.file with
  | .ok _ file => set { backend with file := file }
  | .error reason _ => throw reason

/-- Record that the version row is written. -/
def stampDone : EStateM RowError SqliteBackend Unit :=
  modify fun backend => { backend with stamped := true }

/-- `get_row`. -/
def getRow (store key : String) :
    EStateM RowError SqliteBackend (Option Bytes) := do
  validateStoreName store
  createTable store
  return (table (← get).file store)[key]?

/-- `get_rows`, ordered by key. -/
def getRows (store : String) :
    EStateM RowError SqliteBackend (List (String × Bytes)) := do
  validateStoreName store
  createTable store
  return (table (← get).file store).toList

/-- `put_row`. -/
def putRow (store key : String) (bytes : Bytes) :
    EStateM RowError SqliteBackend Unit := do
  validateStoreName store
  let backend ← get
  createTable store
  transaction do
    stampIfNeeded backend.stamped backend.dbVersion
    modify (insertRow store key bytes)
  stampDone

/-- `delete_row`. -/
def deleteRow (store key : String) : EStateM RowError SqliteBackend Unit := do
  validateStoreName store
  createTable store
  modify fun backend => { backend with file := removeRow store key backend.file }

/-- Delete rows, except the one kept for the backend. -/
def removeRows (store : String) : List String → EStateM RowError SqliteFile Unit
  | [] => return ()
  | key :: later => do
      if Reserved store key then
        throw .sqlite
      modify (removeRow store key)
      removeRows store later

/-- Insert rows, except the one kept for the backend. -/
def insertRows (store : String) :
    List (String × Bytes) → EStateM RowError SqliteFile Unit
  | [] => return ()
  | (key, bytes) :: later => do
      if Reserved store key then
        throw .sqlite
      modify (insertRow store key bytes)
      insertRows store later

/-- `flush_batch`: one transaction. -/
def flushBatch
    (store : String)
    (inserts : List (String × Bytes))
    (removed : List String) : EStateM RowError SqliteBackend Unit := do
  validateStoreName store
  let backend ← get
  createTable store
  transaction do
    stampIfNeeded backend.stamped backend.dbVersion
    removeRows store removed
    insertRows store inserts
  stampDone

end SqliteBackend

/-- A backend, opened from what is on disk and closed to it. -/
class RowBackend (Backend : Type) (Disk : outParam Type) where
  fresh : Disk
  open_ : Disk → UInt32 → Except RowError Backend
  close : Backend → Disk
  getRow : String → String → EStateM RowError Backend (Option Bytes)
  getRows : String → EStateM RowError Backend (List (String × Bytes))
  putRow : String → String → Bytes → EStateM RowError Backend Unit
  deleteRow : String → String → EStateM RowError Backend Unit
  flushBatch :
    String → List (String × Bytes) → List String →
      EStateM RowError Backend Unit

instance {Value : Type} [SerdeJson Value] :
    RowBackend (JsonBackend Value) JsonDir where
  fresh := ⟨none, ∅⟩
  open_ := JsonBackend.open_
  close := JsonBackend.dir
  getRow := JsonBackend.getRow
  getRows := JsonBackend.getRows
  putRow := JsonBackend.putRow
  deleteRow := JsonBackend.deleteRow
  flushBatch := JsonBackend.flushBatch

instance : RowBackend SqliteBackend SqliteFile where
  fresh := ∅
  open_ := SqliteBackend.open_
  close := SqliteBackend.file
  getRow := SqliteBackend.getRow
  getRows := SqliteBackend.getRows
  putRow := SqliteBackend.putRow
  deleteRow := SqliteBackend.deleteRow
  flushBatch := SqliteBackend.flushBatch

/-- The default of the backend trait: delete the removed rows, then put the
inserts. -/
def flushByRows
    {Backend Disk : Type}
    [RowBackend Backend Disk]
    (store : String)
    (inserts : List (String × Bytes))
    (removed : List String) : EStateM RowError Backend Unit := do
  validateStoreName store
  removed.forM (RowBackend.deleteRow store)
  inserts.forM fun row => RowBackend.putRow store row.1 row.2

/-- An operation. -/
inductive RowOp where
  | putRow (store key : String) (bytes : Bytes)
  | deleteRow (store key : String)
  | flushBatch
      (store : String)
      (inserts : List (String × Bytes))
      (removed : List String)
  | getRow (store key : String)
  | getRows (store : String)
  | close
  /-- Open with a binary of some `DB_VERSION`. -/
  | reopen (dbVersion : UInt32)
  deriving Repr, DecidableEq

/-- What an operation returns. -/
inductive RowReply where
  | done
  | row (bytes : Option Bytes)
  | rows (rows : List (String × Bytes))
  | failed (reason : RowError)
  deriving Repr, DecidableEq

inductive Medium (Backend Disk : Type) where
  | closed (disk : Disk)
  | opened (backend : Backend)

namespace Medium

variable {Backend Disk : Type}

/-- The reply and the state an operation on an open backend ends with. -/
def reply
    {α : Type}
    (wrap : α → RowReply) :
    EStateM.Result RowError Backend α → RowReply × Medium Backend Disk
  | .ok value backend => (wrap value, .opened backend)
  | .error reason backend => (.failed reason, .opened backend)

/-- Run an operation; there is nothing to call on a closed backend. -/
def apply [RowBackend Backend Disk] :
    Medium Backend Disk → RowOp → Option (RowReply × Medium Backend Disk)
  | .opened backend, .putRow store key bytes =>
      some (reply (fun _ => .done) (RowBackend.putRow store key bytes backend))
  | .opened backend, .deleteRow store key =>
      some (reply (fun _ => .done) (RowBackend.deleteRow store key backend))
  | .opened backend, .flushBatch store inserts removed =>
      some
        (reply (fun _ => .done)
          (RowBackend.flushBatch store inserts removed backend))
  | .opened backend, .getRow store key =>
      some (reply .row (RowBackend.getRow store key backend))
  | .opened backend, .getRows store =>
      some (reply .rows (RowBackend.getRows store backend))
  | .opened backend, .close =>
      some (.done, .closed (RowBackend.close backend))
  -- The directory is locked while a backend is open.
  | .opened backend, .reopen _ =>
      some (.failed .alreadyOpen, .opened backend)
  | .closed disk, .reopen dbVersion =>
      match (RowBackend.open_ disk dbVersion : Except RowError Backend) with
      | .ok backend => some (.done, .opened backend)
      | .error reason => some (.failed reason, .closed disk)
  | .closed _, _ => none

end Medium

end Bwk.RowBackends
