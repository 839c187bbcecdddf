import Bwk.RowBackendsAgree

namespace Bwk.RowBackends

open Bwk.HeaderFile

set_option linter.unusedSectionVars false

/-!
# Runs of the two backends

Any operations, in any order, on a fresh JSON backend and a fresh SQLite
backend side by side.
-/

variable {Value : Type} [SerdeJson Value]

theorem isWhitespace_of_isDigit
    {digit : Char}
    (isDigit : digit.isDigit = true) :
    digit.isWhitespace = false := by
  by_contra space
  have isSpace := Bool.eq_true_of_not_eq_false space
  simp only [Char.isWhitespace, Bool.or_eq_true, decide_eq_true_eq] at isSpace
  rcases isSpace with ((rfl | rfl) | rfl) | rfl <;> revert isDigit <;> decide

theorem dropWhile_of_none
    {α : Type}
    {drops : α → Bool}
    {entries : List α}
    (none : ∀ entry ∈ entries, drops entry = false) :
    entries.dropWhile drops = entries := by
  cases entries with
  | nil =>
      rfl
  | cons head rest =>
      rw [List.dropWhile_cons_of_neg]
      simp [none head]

theorem trim_versionText (version : UInt32) :
    trim (versionText version) = toString version.toNat := by
  have digits :
      ∀ digit ∈ (toString version.toNat).toList,
        digit.isWhitespace = false := by
    intro digit member
    rw [Nat.toString_eq_repr, Nat.toList_repr] at member
    exact
      isWhitespace_of_isDigit
        (Nat.isDigit_of_mem_toDigits (by decide) (by decide) member)
  have nonempty : (toString version.toNat).toList ≠ [] := by
    rw [Nat.toString_eq_repr, Nat.toList_repr]
    exact Nat.toDigits_ne_nil
  rw [trim, versionText, String.toList_append]
  generalize shown : (toString version.toNat).toList = text at digits nonempty
  have front :
      (text ++ "\n".toList).dropWhile Char.isWhitespace =
        text ++ "\n".toList := by
    cases text with
    | nil =>
        exact absurd rfl nonempty
    | cons first rest =>
        rw [List.cons_append, List.dropWhile_cons_of_neg]
        simp [digits first]
  have back :
      (text ++ "\n".toList).reverse.dropWhile Char.isWhitespace =
        text.reverse := by
    rw [List.reverse_append]
    exact
      dropWhile_of_none fun digit member =>
        digits digit (List.mem_reverse.mp member)
  rw [front, back, List.reverse_reverse, ← shown, String.ofList_toList]

theorem version_bounded (version : UInt32) : version.toNat ≤ u32Max := by
  have below := version.toNat_lt
  rw [u32Max]
  omega

theorem parse_versionText (version : UInt32) :
    parseHeight (trim (versionText version)) = some version.toNat := by
  rw [trim_versionText, parseHeight_toString (version_bounded version)]

theorem decodeVersion_encodeVersion (version : UInt32) :
    SqliteBackend.decodeVersion (SqliteBackend.encodeVersion version) =
      .ok version.toNat := by
  rw [SqliteBackend.decodeVersion, SqliteBackend.encodeVersion,
    if_pos (by rfl), fromLeBytes_toLeBytes (version_bounded version)]

/-- The version recorded in a directory. -/
def jsonRecorded (dir : JsonDir) : Option Nat :=
  dir.version.bind fun text => parseHeight (trim text)

/-- The version recorded in a database. -/
def sqliteRecorded (file : SqliteFile) : Option Nat :=
  (SqliteBackend.versionRow file).bind fun bytes =>
    (SqliteBackend.decodeVersion bytes).toOption

def Exceeds (recorded : Option Nat) (dbVersion : UInt32) : Prop :=
  ∃ found, recorded = some found ∧ found > dbVersion.toNat

variable {dir : JsonDir} {file : SqliteFile} {maps : RowMaps Value}

/-- Opening alike media: both are refused when the recorded version exceeds
that of the binary, and open alike otherwise. -/
theorem AlikeDisk.open_
    (alike : AlikeDisk dir file maps)
    (dbVersion : UInt32) :
    jsonRecorded dir = sqliteRecorded file ∧
      ((Exceeds (jsonRecorded dir) dbVersion ∧
          (∃ reason,
            (JsonBackend.open_ dir dbVersion :
              Except RowError (JsonBackend Value)) = .error reason) ∧
          ∃ reason, SqliteBackend.open_ file dbVersion = .error reason) ∨
        (¬ Exceeds (jsonRecorded dir) dbVersion ∧
          ∃ (json : JsonBackend Value) (sqlite : SqliteBackend),
            JsonBackend.open_ dir dbVersion = .ok json ∧
              SqliteBackend.open_ file dbVersion = .ok sqlite ∧
              Alike json sqlite maps)) := by
  obtain ⟨recorded, version, row⟩ := alike.recorded
  have created :
      AlikeDisk dir
        (SqliteBackend.createStoreTableMaybe accountStoreKey file) maps :=
    { alike with
      tables := alike.tables.create _
      recorded :=
        ⟨recorded, version,
          (SqliteBackend.versionRow_create file _).trans row⟩ }
  have row' :
      (SqliteBackend.table
          (SqliteBackend.createStoreTableMaybe accountStoreKey file)
          accountStoreKey)[versionRowKey]? =
        recorded.map SqliteBackend.encodeVersion :=
    (SqliteBackend.versionRow_create file _).trans row
  rw [jsonRecorded, sqliteRecorded, version, row]
  cases recorded with
  | none =>
      refine ⟨rfl, .inr ⟨?_, ⟨dir, dbVersion, false⟩,
        ⟨SqliteBackend.createStoreTableMaybe accountStoreKey file, dbVersion,
          false⟩, ?_, ?_, created, rfl, rfl⟩⟩
      · rintro ⟨_, impossible, _⟩
        cases impossible
      · rw [JsonBackend.open_, JsonBackend.checkVersion, version]
        rfl
      · rw [SqliteBackend.open_, SqliteBackend.checkVersion, row']
        rfl
  | some found =>
      have parsed := parse_versionText found
      have decoded := decodeVersion_encodeVersion found
      simp only [Option.map_some, Option.bind_some, parsed, decoded,
        Except.toOption]
      refine ⟨trivial, ?_⟩
      have jsonCheck :
          JsonBackend.checkVersion dir dbVersion =
            if found.toNat > dbVersion.toNat then
              .error (.dbVersionTooNew found.toNat dbVersion.toNat)
            else
              .ok (some found.toNat) := by
        rw [JsonBackend.checkVersion, version]
        simp only [Option.map_some, parsed]
      have sqliteCheck :
          SqliteBackend.checkVersion
              (SqliteBackend.createStoreTableMaybe accountStoreKey file)
              dbVersion =
            if found.toNat > dbVersion.toNat then
              .error (.dbVersionTooNew found.toNat dbVersion.toNat)
            else
              .ok (some found.toNat) := by
        rw [SqliteBackend.checkVersion, row']
        simp only [Option.map_some, decoded, bind, Except.bind]
        split <;> rfl
      rw [JsonBackend.open_, SqliteBackend.open_]
      simp only [jsonCheck, sqliteCheck]
      by_cases newer : found.toNat > dbVersion.toNat
      · rw [if_pos newer]
        exact .inl ⟨⟨_, rfl, newer⟩, ⟨_, rfl⟩, _, rfl⟩
      · rw [if_neg newer]
        refine .inr ⟨?_, _, _, rfl, rfl, created, rfl, rfl⟩
        rintro ⟨_, ⟨⟩, exceeds⟩
        exact newer exceeds

/-- Two media alike: both closed, or both open. -/
inductive AlikeMedia :
    Medium (JsonBackend Value) JsonDir →
      Medium SqliteBackend SqliteFile → RowMaps Value → Prop where
  | closed {dir : JsonDir} {file : SqliteFile} {maps : RowMaps Value}
      (alike : AlikeDisk dir file maps) :
      AlikeMedia (.closed dir) (.closed file) maps
  | opened
      {json : JsonBackend Value} {sqlite : SqliteBackend}
      {maps : RowMaps Value}
      (alike : Alike json sqlite maps) :
      AlikeMedia (.opened json) (.opened sqlite) maps

/-- Whether the database of a medium holds a version row. -/
def Versioned : Medium SqliteBackend SqliteFile → Prop
  | .closed file => SqliteBackend.versionRow file ≠ none
  | .opened sqlite => SqliteBackend.versionRow sqlite.file ≠ none

/-- An operation leaves the version row alone, and writes values that read back
unchanged. -/
def LeavesVersion
    (media :
      Medium (JsonBackend Value) JsonDir × Medium SqliteBackend SqliteFile) :
    RowOp → Prop
  | .putRow store key bytes =>
      ¬ Reserved store key ∧ Writable Value key bytes
  | .deleteRow store key => ¬ Reserved store key
  | .flushBatch store inserts removed =>
      (∀ row ∈ inserts,
        ¬ Reserved store row.1 ∧ Writable Value row.1 row.2) ∧
        ∀ key ∈ removed, ¬ Reserved store key
  | .getRow store key => Reserved store key → ¬ Versioned media.2
  | .getRows store => store = accountStoreKey → ¬ Versioned media.2
  | .close | .reopen _ => True

/-- Run an operation on both media. -/
def step
    (media :
      Medium (JsonBackend Value) JsonDir × Medium SqliteBackend SqliteFile)
    (op : RowOp) :
    Option
      (Medium (JsonBackend Value) JsonDir × Medium SqliteBackend SqliteFile) :=
  match media.1.apply op, media.2.apply op with
  | some (_, json), some (_, sqlite) => some (json, sqlite)
  | _, _ => none

/-- Replies of the two media to an operation that agree. -/
def Answers
    (json : Medium (JsonBackend Value) JsonDir)
    (sqlite : Medium SqliteBackend SqliteFile)
    (op : RowOp) : Prop :=
  match json.apply op, sqlite.apply op with
  | some (left, _), some (right, _) => RepliesAgree Value left right
  | none, none => True
  | _, _ => False

variable {op : RowOp} {dbVersion : UInt32}

theorem Medium.apply_opens
    {Backend Disk : Type}
    [RowBackend Backend Disk]
    {disk : Disk}
    {backend : Backend}
    (opens : RowBackend.open_ disk dbVersion = .ok backend) :
    (Medium.closed disk).apply (.reopen dbVersion) =
      some (.done, .opened backend) := by
  rw [Medium.apply, opens]

theorem Medium.apply_refused
    (Backend : Type)
    {Disk : Type}
    [RowBackend Backend Disk]
    {disk : Disk}
    {reason : RowError}
    (refused :
      (RowBackend.open_ disk dbVersion : Except RowError Backend) =
        .error reason) :
    (Medium.closed disk : Medium Backend Disk).apply (.reopen dbVersion) =
      some (.failed reason, .closed disk) := by
  rw [Medium.apply, refused]

/-- The store an operation names. -/
def RowOp.store? : RowOp → Option String
  | .putRow store _ _ | .deleteRow store _ | .flushBatch store _ _
  | .getRow store _ | .getRows store => some store
  | .close | .reopen _ => none

theorem refused_unknown
    {σ α : Type}
    {store : String}
    (unknown : store ∉ knownStores)
    (next : Unit → EStateM RowError σ α)
    (state : σ) :
    (validateStoreName store >>= next) state =
      .error (.unknownStore store) state :=
  bind_apply_error (validate_unknown unknown state)

theorem JsonBackend.apply_unknown
    (json : JsonBackend Value)
    {store : String}
    (names : op.store? = some store)
    (unknown : store ∉ knownStores) :
    (Medium.opened json).apply op =
      some (.failed (.unknownStore store), .opened json) := by
  cases op <;> cases names <;>
    exact
      congrArg (some <| Medium.reply _ ·) (refused_unknown unknown _ json)

/-- An operation on an unknown store fails and leaves the SQLite backend. -/
theorem SqliteBackend.apply_unknown
    (sqlite : SqliteBackend)
    {store : String}
    (names : op.store? = some store)
    (unknown : store ∉ knownStores) :
    (Medium.opened sqlite).apply op =
      some (.failed (.unknownStore store), .opened sqlite) := by
  cases op <;> cases names <;>
    exact
      congrArg (some <| Medium.reply _ ·) (refused_unknown unknown _ sqlite)

/-- What alike media do on an operation: nothing can be called on either, or
both reply alike and are alike afterwards. -/
inductive Together
    (json : Medium (JsonBackend Value) JsonDir)
    (sqlite : Medium SqliteBackend SqliteFile)
    (op : RowOp) : Prop where
  | nothing
      (left : json.apply op = none)
      (right : sqlite.apply op = none)
  | both
      {left right : RowReply}
      {json' : Medium (JsonBackend Value) JsonDir}
      {sqlite' : Medium SqliteBackend SqliteFile}
      {maps : RowMaps Value}
      (jsonDoes : json.apply op = some (left, json'))
      (sqliteDoes : sqlite.apply op = some (right, sqlite'))
      (agree : RepliesAgree Value left right)
      (alike : AlikeMedia json' sqlite' maps)

/-- What alike media do on an operation that leaves the version row alone. -/
theorem AlikeMedia.apply
    [LawfulSerdeJson Value]
    {json : Medium (JsonBackend Value) JsonDir}
    {sqlite : Medium SqliteBackend SqliteFile}
    (alike : AlikeMedia json sqlite maps)
    (leaves : LeavesVersion (json, sqlite) op) :
    Together json sqlite op := by
  cases alike with
  | closed alike =>
      cases op with
      | reopen dbVersion =>
          rcases (alike.open_ dbVersion).2 with
            ⟨_, ⟨_, jsonRefuses⟩, _, sqliteRefuses⟩ |
              ⟨_, _, _, jsonOpens, sqliteOpens, opened⟩
          · exact
              .both (Medium.apply_refused (JsonBackend Value) jsonRefuses)
                (Medium.apply_refused SqliteBackend sqliteRefuses)
                (.failed _ _) (.closed alike)
          · exact
              .both (Medium.apply_opens jsonOpens)
                (Medium.apply_opens sqliteOpens) .done (.opened opened)
      | putRow | deleteRow | flushBatch | getRow | getRows | close =>
          exact .nothing rfl rfl
  | @opened json sqlite _ alike =>
      by_cases unknown : ∃ store, op.store? = some store ∧ store ∉ knownStores
      · obtain ⟨store, names, unknown⟩ := unknown
        exact
          .both (json.apply_unknown names unknown)
            (sqlite.apply_unknown names unknown) (.failed _ _) (.opened alike)
      have known :
          ∀ store, op.store? = some store → store ∈ knownStores := by
        intro store names
        by_contra foreign
        exact unknown ⟨store, names, foreign⟩
      cases op with
      | putRow store key bytes =>
          obtain ⟨free, value, decoded, survives⟩ := leaves
          obtain ⟨json', sqlite', left, right, after⟩ :=
            alike.putRow (known store rfl) free decoded survives
          refine .both ?_ ?_ .done (.opened after)
          · exact congrArg (some <| Medium.reply _ ·) left
          · exact congrArg (some <| Medium.reply _ ·) right
      | deleteRow store key =>
          obtain ⟨json', sqlite', left, right, after⟩ :=
            alike.deleteRow (known store rfl) leaves
          refine .both ?_ ?_ .done (.opened after)
          · exact congrArg (some <| Medium.reply _ ·) left
          · exact congrArg (some <| Medium.reply _ ·) right
      | flushBatch store inserts removed =>
          obtain ⟨values, decoded, survive⟩ :=
            decoded_of_writable (fun row member => (leaves.1 row member).1)
              fun row member => (leaves.1 row member).2
          obtain ⟨json', sqlite', left, right, after⟩ :=
            alike.flushBatch (known store rfl)
              (fun row member => (leaves.1 row member).1) leaves.2
              (fun row member => (survive row member).1) decoded
              fun row member => (survive row member).2
          refine .both ?_ ?_ .done (.opened after)
          · exact congrArg (some <| Medium.reply _ ·) left
          · exact congrArg (some <| Medium.reply _ ·) right
      | getRow store key =>
          obtain ⟨_, _, _, left, right, agree, after⟩ :=
            alike.getRow (known store rfl) key fun reserved =>
              not_not.mp (leaves reserved)
          refine .both ?_ ?_ agree (.opened after)
          · exact congrArg (some <| Medium.reply _ ·) left
          · exact congrArg (some <| Medium.reply _ ·) right
      | getRows store =>
          obtain ⟨_, _, _, left, right, agree, after⟩ :=
            alike.getRows (known store rfl) fun account =>
              not_not.mp (leaves account)
          refine .both ?_ ?_ agree (.opened after)
          · exact congrArg (some <| Medium.reply _ ·) left
          · exact congrArg (some <| Medium.reply _ ·) right
      | close =>
          exact .both rfl rfl .done (.closed alike.disk)
      | reopen dbVersion =>
          exact .both rfl rfl (.failed _ _) (.opened alike)

section Undone

variable {ε σ α β : Type}

/-- A computation that leaves the state, however it ends. -/
def ReadOnly (body : EStateM ε σ α) : Prop :=
  ∀ before, Keeps (· = before) body

/-- A computation that leaves the state when it fails. -/
def Undone (body : EStateM ε σ α) : Prop :=
  ∀ before,
    Holds (· = before) body (fun _ _ => True) fun _ after => after = before

def NeverFails (body : EStateM ε σ α) : Prop :=
  Holds (fun _ => True) body (fun _ _ => True) fun _ _ => False

variable {body : EStateM ε σ α}

theorem ReadOnly.undone
    (reads : ReadOnly body) :
    Undone body :=
  fun before =>
    (reads before).conseq (fun _ same => same) (fun _ _ _ => trivial)
      fun _ _ same => same

theorem NeverFails.undone
    (never : NeverFails body) :
    Undone body :=
  fun _ =>
    Holds.conseq never (fun _ _ => trivial) (fun _ _ done => done)
      fun _ _ impossible => impossible.elim

theorem Undone.afterRead
    {next : α → EStateM ε σ β}
    (reads : ReadOnly body)
    (rest : ∀ value, Undone (next value)) :
    Undone (body >>= next) :=
  fun before =>
    Holds.through (fun _ state => state = before) (reads before)
      fun value => rest value before

theorem Undone.same
    (undone : Undone body)
    {before after : σ}
    {reason : ε}
    (failed : body before = .error reason after) :
    after = before := by
  have left := undone before before rfl
  rw [failed] at left
  exact left

end Undone

theorem validateStoreName_readOnly {σ : Type} (store : String) :
    ReadOnly (validateStoreName store : EStateM RowError σ Unit) :=
  fun _ => Holds.ite (fun _ => Keeps.pure) fun _ => Keeps.throw

namespace JsonBackend

variable {store : String}

theorem readStore_readOnly :
    ReadOnly (readStore store : EStateM RowError (JsonBackend Value) _) := by
  intro before
  refine Holds.bindGet fun read _ => ?_
  split
  · exact Keeps.pure
  · split
    · exact Keeps.pure
    · exact Keeps.throw

theorem decodeValue_readOnly (bytes : Bytes) :
    ReadOnly (decodeValue bytes : EStateM RowError (JsonBackend Value) _) := by
  intro before
  rw [decodeValue]
  split
  · exact Keeps.pure
  · exact Keeps.throw

theorem insertDecoded_readOnly
    (rows : BTreeMap String Value)
    (inserts : List (String × Bytes)) :
    ReadOnly (insertDecoded rows inserts) := by
  intro before
  induction inserts generalizing rows with
  | nil =>
      exact Keeps.pure
  | cons row later inductionHypothesis =>
      exact
        Keeps.bind (decodeValue_readOnly row.2 before) fun value =>
          inductionHypothesis (rows.insert row.1 value)

theorem stampAndWrite_neverFails (rows : BTreeMap String Value) :
    NeverFails (do stampVersionIfNeeded; writeStore store rows) := by
  intro backend _
  rw [bind_apply_ok stampVersionIfNeeded_eq]
  exact trivial

theorem apply_failed
    {json : JsonBackend Value}
    {reason : RowError}
    {after : Medium (JsonBackend Value) JsonDir}
    (failed :
      (Medium.opened json).apply op = some (.failed reason, after)) :
    after = .opened json := by
  have undone :
      ∀ {α : Type} {body : EStateM RowError (JsonBackend Value) α}
        {wrap : α → RowReply},
        (∀ value, wrap value ≠ .failed reason) → Undone body →
          some (Medium.reply wrap (body json)) =
            some (.failed reason, after) →
          after = .opened json := by
    intro α body wrap succeeds undone same
    cases outcome : body json with
    | ok value json' =>
        rw [outcome] at same
        injection same with same
        injection same with reply _
        exact absurd reply (succeeds value)
    | error why json' =>
        rw [outcome] at same
        injection same with same
        injection same with _ left
        rw [← left, undone.same outcome]
  cases op with
  | putRow store key bytes =>
      refine undone nofun ?_ failed
      exact
        .afterRead (validateStoreName_readOnly store) fun _ =>
          .afterRead (decodeValue_readOnly bytes) fun _ =>
            .afterRead readStore_readOnly fun _ =>
              (stampAndWrite_neverFails _).undone
  | deleteRow store key =>
      refine undone nofun ?_ failed
      exact
        .afterRead (validateStoreName_readOnly store) fun _ =>
          .afterRead readStore_readOnly fun _ =>
            NeverFails.undone <|
              Holds.ite (fun _ => Holds.modify fun _ _ => trivial) fun _ =>
                Holds.pure fun _ _ => trivial
  | flushBatch store inserts removed =>
      refine undone nofun ?_ failed
      exact
        .afterRead (validateStoreName_readOnly store) fun _ =>
          .afterRead readStore_readOnly fun _ =>
            .afterRead (insertDecoded_readOnly _ inserts) fun _ =>
              (stampAndWrite_neverFails _).undone
  | getRow store key | getRows store =>
      refine undone nofun ?_ failed
      exact
        .afterRead (validateStoreName_readOnly store) fun _ =>
          .afterRead readStore_readOnly fun _ =>
            ReadOnly.undone fun _ => Keeps.pure
  | close =>
      cases failed
  | reopen dbVersion =>
      injection failed with failed
      injection failed with _ left
      exact left.symm

end JsonBackend

namespace SqliteBackend

variable {reason : RowError}

theorem flushBatch_failed
    {backend after : SqliteBackend}
    {store : String}
    {inserts : List (String × Bytes)}
    {removed : List String}
    (known : store ∈ knownStores)
    (failed :
      flushBatch store inserts removed backend = .error reason after) :
    after =
      { backend with file := createStoreTableMaybe store backend.file } := by
  rw [flushBatch, bind_apply_ok (validate_known known backend), get_bind_apply,
    bind_apply_ok (show createTable store backend = .ok () _ from rfl)]
    at failed
  generalize transacted :
    (do
      stampIfNeeded backend.stamped backend.dbVersion
      removeRows store removed
      insertRows store inserts : EStateM RowError SqliteFile Unit) = body
    at failed
  cases outcome : body (createStoreTableMaybe store backend.file) with
  | ok _ file =>
      rw [bind_apply_ok (transaction_ok outcome)] at failed
      cases failed
  | error why file =>
      rw [bind_apply_error (transaction_error outcome)] at failed
      cases failed
      rfl

theorem apply_failed
    {sqlite : SqliteBackend}
    {after : Medium SqliteBackend SqliteFile}
    (failed :
      (Medium.opened sqlite).apply op = some (.failed reason, after)) :
    ∃ sqlite',
      after = .opened sqlite' ∧
        ∀ store key,
          rowAt sqlite'.file store key = rowAt sqlite.file store key := by
  by_cases unknown : ∃ store, op.store? = some store ∧ store ∉ knownStores
  · obtain ⟨store, names, unknown⟩ := unknown
    rw [sqlite.apply_unknown names unknown] at failed
    cases failed
    exact ⟨sqlite, rfl, fun _ _ => rfl⟩
  have known : ∀ store, op.store? = some store → store ∈ knownStores := by
    intro store names
    by_contra foreign
    exact unknown ⟨store, names, foreign⟩
  cases op with
  | putRow store key bytes =>
      have puts :
          (Medium.opened sqlite).apply (.putRow store key bytes) =
            some (Medium.reply (fun _ => .done) (putRow store key bytes sqlite)) :=
        rfl
      rw [putRow_eq (known store rfl)] at puts
      cases puts.symm.trans failed
  | deleteRow store key =>
      have deletes :
          (Medium.opened sqlite).apply (.deleteRow store key) =
            some (Medium.reply (fun _ => .done) (deleteRow store key sqlite)) :=
        rfl
      rw [deleteRow_eq (known store rfl)] at deletes
      cases deletes.symm.trans failed
  | flushBatch store inserts removed =>
      have flushes :
          (Medium.opened sqlite).apply (.flushBatch store inserts removed) =
            some
              (Medium.reply (fun _ => .done)
                (flushBatch store inserts removed sqlite)) :=
        rfl
      cases outcome : flushBatch store inserts removed sqlite with
      | ok _ backend =>
          rw [outcome] at flushes
          cases flushes.symm.trans failed
      | error why backend =>
          rw [outcome] at flushes
          cases flushes.symm.trans failed
          refine ⟨backend, rfl, fun other key => ?_⟩
          rw [flushBatch_failed (known store rfl) outcome, rowAt_create]
  | getRow store key =>
      have reads :
          (Medium.opened sqlite).apply (.getRow store key) =
            some (Medium.reply .row (getRow store key sqlite)) :=
        rfl
      rw [getRow_eq (known store rfl)] at reads
      cases reads.symm.trans failed
  | getRows store =>
      have reads :
          (Medium.opened sqlite).apply (.getRows store) =
            some (Medium.reply .rows (getRows store sqlite)) :=
        rfl
      rw [getRows_eq (known store rfl)] at reads
      cases reads.symm.trans failed
  | close =>
      cases failed
  | reopen dbVersion =>
      cases failed
      exact ⟨sqlite, rfl, fun _ _ => rfl⟩

end SqliteBackend

end Bwk.RowBackends
