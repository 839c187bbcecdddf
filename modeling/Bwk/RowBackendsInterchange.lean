import Bwk.RowBackendsRuns

namespace Bwk.RowBackends

open Bwk.HeaderFile

set_option linter.unusedSectionVars false

/-!
# What makes the backends interchangeable

Same replies, failures that leave the rows, batches that do what their rows do,
and the same binaries refused.
-/

variable {Value : Type} [SerdeJson Value]
variable {Backend Disk : Type} [RowBackend Backend Disk]

def rowReply (backend : Backend) (store key : String) : RowReply :=
  (Medium.reply .row (RowBackend.getRow store key backend) :
    RowReply × Medium Backend Disk).1

theorem JsonBackend.rowReply_eq
    (backend : JsonBackend Value)
    (store key : String) :
    rowReply backend store key =
      (Medium.reply .row (JsonBackend.getRow store key backend) :
        RowReply × Medium (JsonBackend Value) JsonDir).1 :=
  rfl

theorem SqliteBackend.rowReply_eq
    (backend : SqliteBackend)
    (store key : String) :
    rowReply backend store key =
      (Medium.reply .row (SqliteBackend.getRow store key backend) :
        RowReply × Medium SqliteBackend SqliteFile).1 :=
  rfl

def SameRows : Medium Backend Disk → Medium Backend Disk → Prop
  | .closed before, .closed after => after = before
  | .opened before, .opened after =>
      ∀ store key, rowReply after store key = rowReply before store key
  | _, _ => False

/-- An operation leaves all rows when it fails. -/
def KeepsRows (medium : Medium Backend Disk) (op : RowOp) : Prop :=
  ∀ reason after,
    medium.apply op = some (.failed reason, after) → SameRows medium after

/-- A batch ends where deleting the removed keys and putting the inserts ends,
in every row but the one kept for the version. -/
def BatchByRows (Value : Type) [SerdeJson Value] :
    Medium Backend Disk → RowOp → Prop
  | .opened backend, .flushBatch store inserts removed =>
      match RowBackend.flushBatch store inserts removed backend,
          flushByRows store inserts removed backend with
      | .ok _ batch, .ok _ byRows =>
          ∀ other key, ¬ Reserved other key →
            RepliesAgree Value (rowReply batch other key)
              (rowReply byRows other key)
      | .error _ _, .error _ _ => True
      | _, _ => False
  | _, _ => True

def Refuses (medium : Medium Backend Disk) (op : RowOp) : Prop :=
  ∃ reason after, medium.apply op = some (.failed reason, after)

/-- Both refuse a reopen exactly when the recorded version exceeds that of the
binary. -/
def RefuseNewer
    (json : Medium (JsonBackend Value) JsonDir)
    (sqlite : Medium SqliteBackend SqliteFile)
    (op : RowOp) : Prop :=
  ∀ dir file dbVersion,
    json = .closed dir → sqlite = .closed file → op = .reopen dbVersion →
      jsonRecorded dir = sqliteRecorded file ∧
        (Refuses json op ↔ Exceeds (jsonRecorded dir) dbVersion) ∧
        (Refuses sqlite op ↔ Exceeds (sqliteRecorded file) dbVersion)

/-- The two media are interchangeable for an operation. -/
structure Interchangeable
    (json : Medium (JsonBackend Value) JsonDir)
    (sqlite : Medium SqliteBackend SqliteFile)
    (op : RowOp) : Prop where
  answers : Answers json sqlite op
  keptJson : KeepsRows json op
  keptSqlite : KeepsRows sqlite op
  batchJson : BatchByRows Value json op
  batchSqlite : BatchByRows Value sqlite op
  refusals : RefuseNewer json sqlite op

theorem Medium.closed_failed
    {disk : Disk}
    {op : RowOp}
    {reason : RowError}
    {after : Medium Backend Disk}
    (failed :
      (Medium.closed disk : Medium Backend Disk).apply op =
        some (.failed reason, after)) :
    after = .closed disk := by
  cases op with
  | reopen dbVersion =>
      rw [Medium.apply] at failed
      split at failed
      case h_1 => cases failed
      case h_2 =>
        cases failed
        rfl
  | putRow | deleteRow | flushBatch | getRow | getRows | close =>
      cases failed

theorem JsonBackend.keepsRows
    (json : Medium (JsonBackend Value) JsonDir)
    (op : RowOp) :
    KeepsRows json op := by
  intro reason after failed
  cases json with
  | closed dir =>
      rw [Medium.closed_failed failed]
      exact rfl
  | opened backend =>
      rw [JsonBackend.apply_failed failed]
      exact fun _ _ => rfl

theorem SqliteBackend.rowReply_of_same
    {before after : SqliteBackend}
    (same :
      ∀ store key, rowAt after.file store key = rowAt before.file store key)
    (store key : String) :
    rowReply after store key = rowReply before store key := by
  rw [rowReply_eq, rowReply_eq]
  by_cases known : store ∈ knownStores
  · rw [getRow_eq known, getRow_eq known]
    exact congrArg RowReply.row (same store key)
  · rw [getRow, refused_unknown known, refused_unknown known]
    rfl

theorem SqliteBackend.keepsRows
    (sqlite : Medium SqliteBackend SqliteFile)
    (op : RowOp) :
    KeepsRows sqlite op := by
  intro reason after failed
  cases sqlite with
  | closed file =>
      rw [Medium.closed_failed failed]
      exact rfl
  | opened backend =>
      obtain ⟨left, rfl, same⟩ := SqliteBackend.apply_failed failed
      exact SqliteBackend.rowReply_of_same same

section Batches

variable {json json' : JsonBackend Value} {sqlite sqlite' : SqliteBackend}
variable {maps : RowMaps Value} {store : String}

variable {key : String} {inserts : List (String × Bytes)}
variable {removed : List String}

theorem Alike.deleteEach
    [LawfulSerdeJson Value]
    (alike : Alike json sqlite maps)
    (known : store ∈ knownStores)
    (free : ∀ key ∈ removed, ¬ Reserved store key) :
    ∃ json' sqlite',
      removed.forM (JsonBackend.deleteRow store) json = .ok () json' ∧
        removed.forM (SqliteBackend.deleteRow store) sqlite =
          .ok () sqlite' ∧
        Alike json' sqlite' (maps.deleteAll store removed) := by
  induction removed generalizing json sqlite maps with
  | nil =>
      exact ⟨json, sqlite, rfl, rfl, alike⟩
  | cons key later inductionHypothesis =>
      obtain ⟨json₁, sqlite₁, left, right, between⟩ :=
        alike.deleteRow known (free key List.mem_cons_self)
      obtain ⟨json₂, sqlite₂, left', right', after⟩ :=
        inductionHypothesis between
          fun other member => free other (List.mem_cons_of_mem _ member)
      refine ⟨json₂, sqlite₂, ?_, ?_, after⟩
      · rw [List.forM, bind_apply_ok left, left']
      · rw [List.forM, bind_apply_ok right, right']

theorem Alike.putEach
    [LawfulSerdeJson Value]
    (alike : Alike json sqlite maps)
    (known : store ∈ knownStores)
    {values : List (String × Value)}
    (decoded : Decoded inserts values)
    (survive : ∀ row ∈ values, ¬ Reserved store row.1 ∧ Stable row.1 row.2) :
    ∃ json' sqlite',
      inserts.forM (fun row => JsonBackend.putRow store row.1 row.2) json =
          .ok () json' ∧
        inserts.forM (fun row => SqliteBackend.putRow store row.1 row.2)
            sqlite =
          .ok () sqlite' ∧
        Alike json' sqlite' (maps.putAll store values) := by
  induction decoded generalizing json sqlite maps with
  | nil =>
      exact ⟨json, sqlite, rfl, rfl, alike⟩
  | @cons insert value later values here _ inductionHypothesis =>
      obtain ⟨key, bytes⟩ := insert
      obtain ⟨rfl, decodes⟩ := here
      obtain ⟨free, stable⟩ := survive value List.mem_cons_self
      obtain ⟨json₁, sqlite₁, left, right, between⟩ :=
        alike.putRow known free decodes stable
      obtain ⟨json₂, sqlite₂, left', right', after⟩ :=
        inductionHypothesis between
          fun other member => survive other (List.mem_cons_of_mem _ member)
      refine ⟨json₂, sqlite₂, ?_, ?_, after⟩
      · rw [List.forM, bind_apply_ok left, left']
      · rw [List.forM, bind_apply_ok right, right']

theorem Alike.rowReply_eq
    (alike : Alike json sqlite maps)
    (known : store ∈ knownStores)
    (free : ¬ Reserved store key) :
    ∃ left right,
      rowReply json store key = .row left ∧
        rowReply sqlite store key = .row right ∧
        Reads (maps store)[key]? left ∧
        Reads (maps store)[key]? right := by
  refine ⟨_, _, ?_, ?_, alike.readsJson store key,
    alike.reads known fun reserved => absurd reserved free⟩
  · rw [JsonBackend.rowReply_eq, JsonBackend.getRow_eq alike.disk.rows known]
    rfl
  · rw [SqliteBackend.rowReply_eq, SqliteBackend.getRow_eq known]
    rfl

theorem Alike.agree
    (first : Alike json sqlite maps)
    (second : Alike json' sqlite' maps)
    (free : ¬ Reserved store key) :
    RepliesAgree Value (rowReply json store key) (rowReply json' store key) ∧
      RepliesAgree Value (rowReply sqlite store key)
        (rowReply sqlite' store key) := by
  by_cases known : store ∈ knownStores
  · obtain ⟨_, _, json₁, sqlite₁, left₁, right₁⟩ :=
      first.rowReply_eq known free
    obtain ⟨_, _, json₂, sqlite₂, left₂, right₂⟩ :=
      second.rowReply_eq known free
    rw [json₁, json₂, sqlite₁, sqlite₂]
    exact ⟨.of_reads left₁ left₂, .of_reads right₁ right₂⟩
  · have jsonFails (backend : JsonBackend Value) :
        rowReply backend store key = .failed (.unknownStore store) := by
      rw [JsonBackend.rowReply_eq, JsonBackend.getRow, refused_unknown known]
      rfl
    have sqliteFails (backend : SqliteBackend) :
        rowReply backend store key = .failed (.unknownStore store) := by
      rw [SqliteBackend.rowReply_eq, SqliteBackend.getRow,
        refused_unknown known]
      rfl
    rw [jsonFails, jsonFails, sqliteFails, sqliteFails]
    exact ⟨.failed _ _, .failed _ _⟩

theorem Alike.batches
    [LawfulSerdeJson Value]
    (alike : Alike json sqlite maps)
    (leaves :
      LeavesVersion (.opened json, .opened sqlite)
        (.flushBatch store inserts removed)) :
    BatchByRows Value (.opened json) (.flushBatch store inserts removed) ∧
      BatchByRows Value (.opened sqlite)
        (.flushBatch store inserts removed) := by
  obtain ⟨insertsLeave, removedLeave⟩ := leaves
  by_cases known : store ∈ knownStores
  · obtain ⟨values, decoded, survive⟩ :=
      decoded_of_writable (fun row member => (insertsLeave row member).1)
        fun row member => (insertsLeave row member).2
    obtain ⟨json₁, sqlite₁, jsonBatch, sqliteBatch, batch⟩ :=
      alike.flushBatch known (fun row member => (insertsLeave row member).1)
        removedLeave (fun row member => (survive row member).1) decoded
        fun row member => (survive row member).2
    obtain ⟨json₂, sqlite₂, jsonDeletes, sqliteDeletes, between⟩ :=
      alike.deleteEach known removedLeave
    obtain ⟨json₃, sqlite₃, jsonPuts, sqlitePuts, byRows⟩ :=
      between.putEach known decoded survive
    have jsonRows :
        flushByRows store inserts removed json = .ok () json₃ := by
      rw [flushByRows, bind_apply_ok (validate_known known json)]
      exact (bind_apply_ok jsonDeletes).trans jsonPuts
    have sqliteRows :
        flushByRows store inserts removed sqlite = .ok () sqlite₃ := by
      rw [flushByRows, bind_apply_ok (validate_known known sqlite)]
      exact (bind_apply_ok sqliteDeletes).trans sqlitePuts
    have jsonBatch' :
        RowBackend.flushBatch store inserts removed json = .ok () json₁ :=
      jsonBatch
    have sqliteBatch' :
        RowBackend.flushBatch store inserts removed sqlite =
          .ok () sqlite₁ :=
      sqliteBatch
    rw [BatchByRows, BatchByRows, jsonBatch', jsonRows, sqliteBatch',
      sqliteRows]
    exact
      ⟨fun _ _ free => (batch.agree byRows free).1,
        fun _ _ free => (batch.agree byRows free).2⟩
  · have jsonBatch :
        RowBackend.flushBatch store inserts removed json =
          .error (.unknownStore store) json :=
      refused_unknown known _ json
    have sqliteBatch :
        RowBackend.flushBatch store inserts removed sqlite =
          .error (.unknownStore store) sqlite :=
      refused_unknown known _ sqlite
    rw [BatchByRows, BatchByRows, jsonBatch, sqliteBatch, flushByRows,
      flushByRows, refused_unknown known, refused_unknown known]
    exact ⟨trivial, trivial⟩

end Batches

section Runs

variable [LawfulSerdeJson Value] {maps : RowMaps Value}
variable {json : Medium (JsonBackend Value) JsonDir}
variable {sqlite : Medium SqliteBackend SqliteFile}
variable {op : RowOp}

theorem AlikeMedia.refuseNewer
    (alike : AlikeMedia json sqlite maps) :
    RefuseNewer json sqlite op := by
  rintro dir file dbVersion rfl rfl rfl
  cases alike with
  | closed alike =>
      obtain ⟨same, outcome⟩ := alike.open_ dbVersion
      refine ⟨same, ?_⟩
      rcases outcome with
        ⟨newer, ⟨jsonReason, jsonRefuses⟩, sqliteReason, sqliteRefuses⟩ |
          ⟨supported, json', sqlite', jsonOpens, sqliteOpens, _⟩
      · have jsonDoes :
            (Medium.closed dir).apply (.reopen dbVersion) =
              some (.failed jsonReason, Medium.closed dir) :=
          Medium.apply_refused (JsonBackend Value) jsonRefuses
        have sqliteDoes :
            (Medium.closed file).apply (.reopen dbVersion) =
              some (.failed sqliteReason, Medium.closed file) :=
          Medium.apply_refused SqliteBackend sqliteRefuses
        exact
          ⟨iff_of_true ⟨_, _, jsonDoes⟩ newer,
            iff_of_true ⟨_, _, sqliteDoes⟩ (same ▸ newer)⟩
      · have jsonDoes :
            (Medium.closed dir).apply (.reopen dbVersion) =
              some (.done, Medium.opened json') :=
          Medium.apply_opens jsonOpens
        have sqliteDoes :
            (Medium.closed file).apply (.reopen dbVersion) =
              some (.done, Medium.opened sqlite') :=
          Medium.apply_opens sqliteOpens
        refine ⟨iff_of_false ?_ supported, iff_of_false ?_ (same ▸ supported)⟩
        · rintro ⟨_, _, refused⟩
          cases jsonDoes.symm.trans refused
        · rintro ⟨_, _, refused⟩
          cases sqliteDoes.symm.trans refused

/-- Alike media are interchangeable for an operation that leaves the version
row alone. -/
theorem AlikeMedia.interchangeable
    (alike : AlikeMedia json sqlite maps)
    (leaves : LeavesVersion (json, sqlite) op) :
    Interchangeable json sqlite op where
  answers := by
    rw [Answers]
    cases alike.apply leaves with
    | nothing left right =>
        rw [left, right]
        exact trivial
    | both left right agree _ =>
        rw [left, right]
        exact agree
  keptJson := JsonBackend.keepsRows json op
  keptSqlite := SqliteBackend.keepsRows sqlite op
  batchJson := by
    cases alike with
    | closed => cases op <;> exact trivial
    | opened alike =>
        cases op with
        | flushBatch store inserts removed => exact (alike.batches leaves).1
        | putRow | deleteRow | getRow | getRows | close | reopen =>
            exact trivial
  batchSqlite := by
    cases alike with
    | closed => cases op <;> exact trivial
    | opened alike =>
        cases op with
        | flushBatch store inserts removed => exact (alike.batches leaves).2
        | putRow | deleteRow | getRow | getRows | close | reopen =>
            exact trivial
  refusals := alike.refuseNewer

theorem AlikeMedia.step
    (alike : AlikeMedia json sqlite maps)
    (leaves : LeavesVersion (json, sqlite) op)
    {next : Medium (JsonBackend Value) JsonDir × Medium SqliteBackend SqliteFile}
    (stepped : RowBackends.step (json, sqlite) op = some next) :
    ∃ maps', AlikeMedia next.1 next.2 maps' := by
  rw [RowBackends.step] at stepped
  cases alike.apply leaves with
  | nothing left right =>
      rw [left] at stepped
      cases stepped
  | both left right _ after =>
      rw [left, right] at stepped
      cases stepped
      exact ⟨_, after⟩

/-- A fresh directory and a fresh database, both closed. -/
def fresh (Value : Type) :
    Medium (JsonBackend Value) JsonDir × Medium SqliteBackend SqliteFile :=
  (.closed ⟨none, ∅⟩, .closed ∅)

/-- After any run that leaves the version row alone, the JSON and the SQLite
backend are interchangeable for every operation that does. -/
theorem backends_interchangeable
    {ops : List RowOp}
    (ran :
      Run RowBackends.step LeavesVersion (fresh Value) ops (json, sqlite))
    (leaves : LeavesVersion (json, sqlite) op) :
    Interchangeable json sqlite op := by
  have alike : ∃ maps, AlikeMedia json sqlite maps :=
    ran.invariant (fun media => ∃ maps, AlikeMedia media.1 media.2 maps)
      ⟨_, .closed fresh_alike⟩
      (by
        rintro media next op ⟨maps, alike⟩ leaves stepped
        exact alike.step leaves stepped)
  obtain ⟨maps, alike⟩ := alike
  exact alike.interchangeable leaves

end Runs

/-- The values an operation writes. -/
def RowOp.values : RowOp → List Bytes
  | .putRow _ _ bytes => [bytes]
  | .flushBatch _ inserts _ => inserts.map Prod.snd
  | .deleteRow _ _ | .getRow _ _ | .getRows _ | .close | .reopen _ => []

/-- What a caller of the trait is asked for: known stores, and values that are
serialised JSON. -/
def SerialisedJson
    (_ : Medium (JsonBackend Value) JsonDir × Medium SqliteBackend SqliteFile)
    (op : RowOp) : Prop :=
  (∀ store ∈ op.store?, store ∈ knownStores) ∧
    ∀ bytes ∈ op.values, (SerdeJson.fromSlice bytes : Option Value).isSome

instance :
    DecidableRel
      (SerialisedJson :
        Medium (JsonBackend Value) JsonDir × Medium SqliteBackend SqliteFile →
          RowOp → Prop) :=
  fun _ _ => inferInstanceAs (Decidable (_ ∧ _))

section Sample

/-- `true`. -/
def jsonTrue : Bytes :=
  [116, 114, 117, 101]

/-- `false`. -/
def jsonFalse : Bytes :=
  [102, 97, 108, 115, 101]

/-- An object without members, written out. -/
def jsonEmpty : Bytes :=
  [123, 125]

/-- An object with the member `"a": true`, written out. -/
def jsonRow : Bytes :=
  [123, 10, 32, 32, 34, 97, 34, 58, 32, 116, 114, 117, 101, 10, 125]

/-- The JSON library on the values and the objects above. -/
instance : SerdeJson Bool where
  fromSlice bytes :=
    if bytes = jsonTrue then some true
    else if bytes = jsonFalse then some false
    else none
  toVec value := if value then jsonTrue else jsonFalse
  rowsFromSlice bytes :=
    if bytes = jsonEmpty then some ∅
    else if bytes = jsonRow then
      some ((∅ : BTreeMap String Bool).insert "a" true)
    else none
  rowsToVecPretty rows :=
    if rows.isEmpty then jsonEmpty
    else if rows["a"]? = some true ∧ rows.size = 1 then jsonRow
    else []

instance : LawfulSerdeJson Bool where
  rows_of_each rows each := by
    -- No other row reads back from a file.
    have only
        (key : String)
        (value : Bool)
        (present : rows[key]? = some value) :
        key = "a" ∧ value = true := by
      by_contra other
      have written :
          SerdeJson.rowsToVecPretty
              ((∅ : BTreeMap String Bool).insert key value) = [] := by
        have held : ((∅ : BTreeMap String Bool).insert key value)["a"]? ≠
            some true := by
          rw [BTreeMap.getElem?_insert_eq]
          split
          case isTrue same =>
            intro holdsTrue
            exact other ⟨same, Option.some.inj holdsTrue⟩
          case isFalse => simp
        show (if _ then _ else if _ then _ else _) = _
        rw [if_neg (by simp), if_neg fun both => held both.1]
      have survives := each key value present
      rw [written] at survives
      cases survives
    cases held : rows["a"]? with
    | none =>
        have empty : rows = ∅ := by
          apply Std.ExtTreeMap.ext_getElem?
          intro key
          cases present : rows[key]? with
          | none => simp
          | some value =>
              rw [(only key value present).1, held] at present
              cases present
        rw [empty]
        rfl
    | some value =>
        have single :
            rows = (∅ : BTreeMap String Bool).insert "a" value := by
          apply Std.ExtTreeMap.ext_getElem?
          intro key
          rw [BTreeMap.getElem?_insert_eq]
          split
          case isTrue same => rw [← same, held]
          case isFalse apart =>
            cases present : rows[key]? with
            | none => simp
            | some value =>
                exact absurd (only key value present).1.symm apart
        rw [single]
        exact each "a" value held

theorem coinPut_reached :
    (follow (guarded SerialisedJson RowBackends.step) (fresh Bool)
      [.reopen 1, .putRow "coins" "a" jsonTrue]).isSome := by
  decide

/-- Both media, opened by the first version and given a coin. -/
def coinPut :
    Medium (JsonBackend Bool) JsonDir × Medium SqliteBackend SqliteFile :=
  Option.get _ coinPut_reached

/-- The backends are not interchangeable: once a row is put, only the SQLite
backend shows a version row. -/
theorem version_row_shown :
    ¬ ∀ (ops : List RowOp) (json : Medium (JsonBackend Bool) JsonDir)
        (sqlite : Medium SqliteBackend SqliteFile) (op : RowOp),
        Run RowBackends.step SerialisedJson (fresh Bool) ops (json, sqlite) →
          SerialisedJson (json, sqlite) op →
          Interchangeable json sqlite op := by
  intro claimed
  have ran :
      Run RowBackends.step SerialisedJson (fresh Bool)
        [.reopen 1, .putRow "coins" "a" jsonTrue] coinPut :=
    .of_follow (Option.some_get coinPut_reached).symm
  have left :
      (coinPut.1.apply (.getRow accountStoreKey versionRowKey)).map Prod.fst =
        some (.row none) := by
    decide
  have right :
      (coinPut.2.apply (.getRow accountStoreKey versionRowKey)).map Prod.fst =
        some (.row (some [1, 0, 0, 0])) := by
    decide
  have answers :=
    (claimed _ coinPut.1 coinPut.2 (.getRow accountStoreKey versionRowKey) ran
      (by decide)).answers
  obtain ⟨⟨jsonReply, _⟩, jsonDoes, jsonRow⟩ := Option.map_eq_some_iff.mp left
  obtain ⟨⟨sqliteReply, _⟩, sqliteDoes, sqliteRow⟩ :=
    Option.map_eq_some_iff.mp right
  rw [Answers, jsonDoes, sqliteDoes] at answers
  subst jsonRow sqliteRow
  cases answers

theorem jsonTrue_writable : Writable Bool "a" jsonTrue :=
  ⟨true, rfl, by decide, by decide⟩

theorem opened_reached :
    (RowBackends.step (fresh Bool) (.reopen 1)).isSome := by
  decide

theorem written_reached :
    (RowBackends.step (Option.get _ opened_reached)
      (.putRow "coins" "a" jsonTrue)).isSome := by
  decide

/-- A row is put in one store, and a batch in the account store follows. -/
theorem backends_interchangeable_coin :
    ∃ json sqlite,
      Run RowBackends.step LeavesVersion (fresh Bool)
          [.reopen 1, .putRow "coins" "a" jsonTrue] (json, sqlite) ∧
        Interchangeable json sqlite
          (.flushBatch accountStoreKey [("a", jsonTrue)] ["b"]) := by
  have ran :
      Run RowBackends.step LeavesVersion (fresh Bool)
        [.reopen 1, .putRow "coins" "a" jsonTrue]
        (Option.get _ written_reached) :=
    .took (.took .here trivial (Option.some_get opened_reached).symm)
      ⟨by decide, jsonTrue_writable⟩ (Option.some_get written_reached).symm
  refine ⟨_, _, ran, backends_interchangeable ran ⟨?_, by decide⟩⟩
  intro row member
  rw [List.mem_singleton] at member
  rw [member]
  exact ⟨by decide, jsonTrue_writable⟩

end Sample

end Bwk.RowBackends
