import Bwk.RamStore

namespace Bwk

/-!
# Stores over encoded rows

A `RamStore` of `persist/src/storage/ram.rs` holds typed values and its
backend holds strings and bytes.  The encoding hooks stand between the two, and
an encoding can fail as well as a write.  `CodedBackend` is the backend seen
through the hooks: it carries the fact that every row it holds is the encoding
of a typed one, so that the typed rows are a function of it and a store over
it is a store over a lawful backend.
-/

/-- The encoding hooks of a store, inverse on what they encode. -/
structure Codec (Key Value : Type) where
  encodeKey : Key → String
  decodeKey : String → Except PersistError Key
  encodeValue : Value → Except PersistError (List UInt8)
  decodeValue : List UInt8 → Except PersistError Value
  decode_encodeKey : ∀ key, decodeKey (encodeKey key) = .ok key
  decode_encodeValue :
    ∀ {value bytes}, encodeValue value = .ok bytes →
      decodeValue bytes = .ok value

namespace Codec

section Definitions

variable {Key Value : Type} [Ord Key] [Std.TransOrd Key]

/-- The rows of a flush as they are handed to the backend. -/
def encodeRows (codec : Codec Key Value) :
    List (Key × Value) → Except PersistError (List (String × List UInt8))
  | [] => .ok []
  | (key, value) :: rest => do
      let bytes ← codec.encodeValue value
      let encoded ← codec.encodeRows rest
      .ok ((codec.encodeKey key, bytes) :: encoded)

def decodeRows (codec : Codec Key Value) :
    BTreeMap Key Value → List (String × List UInt8) →
      Except PersistError (BTreeMap Key Value)
  | cache, [] => .ok cache
  | cache, (raw, bytes) :: rest => do
      let key ← codec.decodeKey raw
      let value ← codec.decodeValue bytes
      codec.decodeRows (cache.insert key value) rest

/-- Encoding gives back every row that decodes. -/
def Canonical
    (codec : Codec Key Value)
    (stored : BTreeMap String (List UInt8)) :
    Prop :=
  ∀ raw bytes, stored[raw]? = some bytes →
    (∀ key, codec.decodeKey raw = .ok key → codec.encodeKey key = raw) ∧
      ∀ value, codec.decodeValue bytes = .ok value →
        codec.encodeValue value = .ok bytes

/-- The stored rows are exactly the encodings of the typed ones. -/
structure Encodes
    (codec : Codec Key Value)
    (stored : BTreeMap String (List UInt8))
    (rows : BTreeMap Key Value) :
    Prop where
  typed :
    ∀ raw bytes, stored[raw]? = some bytes →
      ∃ key value, codec.encodeKey key = raw ∧
        rows[key]? = some value ∧ codec.encodeValue value = .ok bytes
  stored :
    ∀ key value, rows[key]? = some value →
      ∃ bytes, codec.encodeValue value = .ok bytes ∧
        stored[codec.encodeKey key]? = some bytes

end Definitions

theorem encodeKey_injective
    {Key Value : Type}
    {codec : Codec Key Value} :
    Function.Injective codec.encodeKey := by
  intro left right same
  have decoded : (Except.ok left : Except PersistError Key) = .ok right := by
    rw [← codec.decode_encodeKey left, same, codec.decode_encodeKey]
  injection decoded

section Encoding

variable {Key Value : Type} [Ord Key] [Std.TransOrd Key]
variable {codec : Codec Key Value}

theorem encodes_empty : codec.Encodes ∅ ∅ where
  typed := by simp
  stored := by simp

theorem decodeRows_ok
    {entries : List (String × List UInt8)}
    (decodes :
      ∀ entry ∈ entries,
        ∃ key value, codec.decodeKey entry.1 = .ok key ∧
          codec.decodeValue entry.2 = .ok value)
    (cache : BTreeMap Key Value) :
    ∃ decoded, codec.decodeRows cache entries = .ok decoded := by
  induction entries generalizing cache with
  | nil =>
      exact ⟨cache, rfl⟩
  | cons entry rest inductionHypothesis =>
      rcases entry with ⟨raw, bytes⟩
      rcases decodes (raw, bytes) List.mem_cons_self with
        ⟨key, value, spelled, image⟩
      rcases inductionHypothesis
          (fun entry member => decodes entry (List.mem_cons_of_mem _ member))
          (cache.insert key value) with ⟨decoded, rest⟩
      refine ⟨decoded, ?_⟩
      simp only [decodeRows, spelled, image]
      exact rest

variable {stored : BTreeMap String (List UInt8)} {rows : BTreeMap Key Value}

theorem Encodes.canonical (encodes : codec.Encodes stored rows) :
    codec.Canonical stored := by
  intro raw bytes present
  rcases encodes.typed raw bytes present with ⟨key, value, spelled, -, image⟩
  constructor
  · intro other decoded
    rw [← spelled, codec.decode_encodeKey] at decoded
    injection decoded with same
    rw [← same, spelled]
  · intro other decoded
    rw [codec.decode_encodeValue image] at decoded
    injection decoded with same
    rw [← same, image]

variable [Std.LawfulEqOrd Key]

theorem Encodes.unique
    {other : BTreeMap Key Value}
    (encodes : codec.Encodes stored rows)
    (otherwise : codec.Encodes stored other) :
    rows = other := by
  have within :
      ∀ {left right : BTreeMap Key Value},
        codec.Encodes stored left → codec.Encodes stored right →
          ∀ (key : Key) (value : Value), left[key]? = some value →
            right[key]? = some value := by
    intro left right fromLeft fromRight key value present
    rcases fromLeft.stored key value present with ⟨bytes, image, row⟩
    rcases fromRight.typed _ bytes row with
      ⟨same, held, spelled, found, again⟩
    have sameKey : same = key := encodeKey_injective spelled
    have sameValue : held = value := by
      have decoded := codec.decode_encodeValue again
      rw [codec.decode_encodeValue image] at decoded
      injection decoded with equal
      exact equal.symm
    rw [← sameKey, ← sameValue]
    exact found
  apply Std.ExtTreeMap.ext_getElem?
  intro key
  apply Option.ext
  intro value
  constructor
  · exact within encodes otherwise key value
  · exact within otherwise encodes key value

variable [DecidableEq Key]

theorem Encodes.insert
    (encodes : codec.Encodes stored rows)
    (key : Key)
    {value : Value}
    {bytes : List UInt8}
    (encoded : codec.encodeValue value = .ok bytes) :
    codec.Encodes (stored.insert (codec.encodeKey key) bytes)
      (rows.insert key value) where
  typed := by
    intro raw found present
    rw [BTreeMap.getElem?_insert_eq] at present
    by_cases same : codec.encodeKey key = raw
    · rw [if_pos same] at present
      cases present
      exact ⟨key, value, same, by simp, encoded⟩
    · rw [if_neg same] at present
      rcases encodes.typed raw found present with
        ⟨other, held, spelled, row, image⟩
      have different : key ≠ other := fun equal =>
        same (equal ▸ spelled)
      refine ⟨other, held, spelled, ?_, image⟩
      rw [BTreeMap.getElem?_insert_eq, if_neg different, row]
  stored := by
    intro query held present
    rw [BTreeMap.getElem?_insert_eq] at present
    by_cases same : key = query
    · subst query
      rw [if_pos rfl] at present
      cases present
      exact ⟨bytes, encoded, by simp⟩
    · rw [if_neg same] at present
      rcases encodes.stored query held present with ⟨found, image, row⟩
      have different : codec.encodeKey key ≠ codec.encodeKey query :=
        fun equal => same (encodeKey_injective equal)
      refine ⟨found, image, ?_⟩
      rw [BTreeMap.getElem?_insert_eq, if_neg different, row]

theorem Encodes.erase
    (encodes : codec.Encodes stored rows)
    (key : Key) :
    codec.Encodes (stored.erase (codec.encodeKey key)) (rows.erase key) where
  typed := by
    intro raw found present
    rw [BTreeMap.getElem?_erase_eq] at present
    by_cases same : codec.encodeKey key = raw
    · rw [if_pos same] at present
      cases present
    · rw [if_neg same] at present
      rcases encodes.typed raw found present with
        ⟨other, held, spelled, row, image⟩
      have different : key ≠ other := fun equal =>
        same (equal ▸ spelled)
      refine ⟨other, held, spelled, ?_, image⟩
      rw [BTreeMap.getElem?_erase_eq, if_neg different, row]
  stored := by
    intro query held present
    rw [BTreeMap.getElem?_erase_eq] at present
    by_cases same : key = query
    · rw [if_pos same] at present
      cases present
    · rw [if_neg same] at present
      rcases encodes.stored query held present with ⟨found, image, row⟩
      have different : codec.encodeKey key ≠ codec.encodeKey query :=
        fun equal => same (encodeKey_injective equal)
      refine ⟨found, image, ?_⟩
      rw [BTreeMap.getElem?_erase_eq, if_neg different, row]

theorem Encodes.eraseAll
    (encodes : codec.Encodes stored rows)
    (keys : List Key) :
    codec.Encodes (stored.eraseAll (keys.map codec.encodeKey))
      (rows.eraseAll keys) := by
  induction keys generalizing stored rows with
  | nil =>
      exact encodes
  | cons key rest inductionHypothesis =>
      exact inductionHypothesis (encodes.erase key)

theorem Encodes.insertAll
    (encodes : codec.Encodes stored rows)
    {inserts : List (Key × Value)}
    {encoded : List (String × List UInt8)}
    (encoding : codec.encodeRows inserts = .ok encoded) :
    codec.Encodes (stored.insertAll encoded) (rows.insertAll inserts) := by
  induction inserts generalizing stored rows encoded with
  | nil =>
      cases encoding
      exact encodes
  | cons entry rest inductionHypothesis =>
      rcases entry with ⟨key, value⟩
      cases image : codec.encodeValue value with
      | error reason =>
          simp only [encodeRows, image] at encoding
          cases encoding
      | ok bytes =>
          cases images : codec.encodeRows rest with
          | error reason =>
              simp only [encodeRows, image, images] at encoding
              cases encoding
          | ok later =>
              simp only [encodeRows, image, images] at encoding
              cases encoding
              exact inductionHypothesis (encodes.insert key image) images

theorem Encodes.of_decodeRows
    (encodes : codec.Encodes stored rows)
    {entries : List (String × List UInt8)}
    {decoded : BTreeMap Key Value}
    (canonical :
      ∀ entry ∈ entries,
        (∀ key, codec.decodeKey entry.1 = .ok key →
          codec.encodeKey key = entry.1) ∧
        ∀ value, codec.decodeValue entry.2 = .ok value →
          codec.encodeValue value = .ok entry.2)
    (decoding : codec.decodeRows rows entries = .ok decoded) :
    codec.Encodes (stored.insertAll entries) decoded := by
  induction entries generalizing stored rows with
  | nil =>
      cases decoding
      exact encodes
  | cons entry rest inductionHypothesis =>
      rcases entry with ⟨raw, bytes⟩
      have here := canonical (raw, bytes) List.mem_cons_self
      cases spelled : codec.decodeKey raw with
      | error reason =>
          simp only [decodeRows, spelled] at decoding
          cases decoding
      | ok key =>
          cases image : codec.decodeValue bytes with
          | error reason =>
              simp only [decodeRows, spelled, image] at decoding
              cases decoding
          | ok value =>
              simp only [decodeRows, spelled, image] at decoding
              have step := encodes.insert key (here.2 value image)
              rw [here.1 key spelled] at step
              exact inductionHypothesis step
                (fun entry member =>
                  canonical entry (List.mem_cons_of_mem _ member))
                decoding

theorem Encodes.of_stored
    {decoded : BTreeMap Key Value}
    (canonical : codec.Canonical stored)
    (decoding : codec.decodeRows ∅ stored.toList = .ok decoded) :
    codec.Encodes stored decoded := by
  have encodes :=
    encodes_empty.of_decodeRows
      (fun entry member =>
        canonical entry.1 entry.2
          (Std.ExtTreeMap.mem_toList_iff_getElem?_eq_some.mp member))
      decoding
  rwa [BTreeMap.insertAll_toList] at encodes

theorem Encodes.decodeRows_eq (encodes : codec.Encodes stored rows) :
    codec.decodeRows ∅ stored.toList = .ok rows := by
  have decodes :
      ∀ entry ∈ stored.toList,
        ∃ key value, codec.decodeKey entry.1 = .ok key ∧
          codec.decodeValue entry.2 = .ok value := by
    intro entry member
    rcases encodes.typed entry.1 entry.2
        (Std.ExtTreeMap.mem_toList_iff_getElem?_eq_some.mp member) with
      ⟨key, value, spelled, -, image⟩
    exact ⟨key, value, spelled ▸ codec.decode_encodeKey key,
      codec.decode_encodeValue image⟩
  rcases decodeRows_ok decodes ∅ with ⟨decoded, decoding⟩
  rw [decoding,
    encodes.unique (Encodes.of_stored encodes.canonical decoding)]

end Encoding

end Codec

section Backend

variable {Key Value : Type} [Ord Key] [Std.TransOrd Key]

/-- A backend of encoded rows, every one of which encodes a typed row. -/
structure CodedBackend
    (codec : Codec Key Value)
    (Raw : Type)
    [PersistenceBackend Raw String (List UInt8)] where
  raw : Raw
  readable : ∃ rows, codec.Encodes (PersistenceBackend.rows raw) rows

variable {Raw : Type} [PersistenceBackend Raw String (List UInt8)]
variable {codec : Codec Key Value}

namespace CodedBackend

def rows (backend : CodedBackend codec Raw) : BTreeMap Key Value :=
  match codec.decodeRows ∅ (PersistenceBackend.rows backend.raw).toList with
  | .ok rows => rows
  | .error _ => ∅

variable [Std.LawfulEqOrd Key] [DecidableEq Key]

theorem encodes (backend : CodedBackend codec Raw) :
    codec.Encodes (PersistenceBackend.rows backend.raw) backend.rows := by
  rcases backend.readable with ⟨rows, encodes⟩
  have same : backend.rows = rows := by
    simp only [CodedBackend.rows, encodes.decodeRows_eq]
  rw [same]
  exact encodes

variable [LawfulBackend Raw]

/--
Encode the inserts and the removed keys and hand them down; an encoding that
fails leaves the backend untouched.
-/
def flushBatch
    (backend : CodedBackend codec Raw)
    (inserts : List (Key × Value))
    (removed : List Key) :
    Except PersistError Unit × CodedBackend codec Raw :=
  match encoding : codec.encodeRows inserts with
  | .error reason => (.error reason, backend)
  | .ok encoded =>
      match
          written :
            PersistenceBackend.flushBatch backend.raw encoded
              (removed.map codec.encodeKey) with
      | (.ok _, raw) =>
          (.ok (),
            { raw := raw
              readable :=
                ⟨_, LawfulBackend.rows_of_ok written ▸
                  (backend.encodes.eraseAll removed).insertAll encoding⟩ })
      | (.error reason, raw) =>
          (.error reason,
            { raw := raw
              readable :=
                ⟨_, LawfulBackend.rows_of_error written ▸
                  backend.encodes⟩ })

instance : PersistenceBackend (CodedBackend codec Raw) Key Value where
  rows := CodedBackend.rows
  flushBatch := CodedBackend.flushBatch

instance : LawfulBackend (CodedBackend codec Raw) where
  rows_of_ok := by
    intro backend after inserts removed written
    change CodedBackend.flushBatch backend inserts removed = _ at written
    unfold CodedBackend.flushBatch at written
    split at written
    · cases written
    · rename_i encoded encoding
      split at written
      · rename_i value raw reached
        cases written
        have stored := LawfulBackend.rows_of_ok reached
        apply Codec.Encodes.unique (CodedBackend.encodes _)
        rw [stored]
        exact (backend.encodes.eraseAll removed).insertAll encoding
      · cases written
  rows_of_error := by
    intro backend after inserts removed reason written
    change CodedBackend.flushBatch backend inserts removed = _ at written
    unfold CodedBackend.flushBatch at written
    split at written
    · cases written
      rfl
    · split at written
      · cases written
      · rename_i value raw reached
        cases written
        have stored := LawfulBackend.rows_of_error reached
        apply Codec.Encodes.unique (CodedBackend.encodes _)
        rw [stored]
        exact backend.encodes

end CodedBackend

end Backend

inductive StoreOp (Key Value : Type) where
  | insert (key : Key) (value : Value)
  | remove (key : Key)
  | modify (key : Key) (update : Value → Value)
  | getMutRef (key : Key) (write : Value → Value)
  | flush

namespace RamStore

section Runs

variable {Backend Key Value : Type} [Ord Key] [Std.TransOrd Key]
variable [PersistenceBackend Backend Key Value]

/-- The store after one call; the borrower of a value writes before it ends. -/
def apply
    (store : RamStore Backend Key Value) :
    StoreOp Key Value → RamStore Backend Key Value
  | .insert key value => store.insert key value
  | .remove key => store.remove key
  | .modify key update => store.modify key update
  | .getMutRef key write =>
      match store.getMutRef key with
      | none => store
      | some (value, release) => release (write value)
  | .flush => store.flush.2

def run
    (store : RamStore Backend Key Value)
    (calls : List (StoreOp Key Value)) :
    RamStore Backend Key Value :=
  calls.foldl apply store

variable [Std.LawfulEqOrd Key] [DecidableEq Key] [LawfulBackend Backend]

variable {store : RamStore Backend Key Value}

theorem Coherent.apply
    (coherent : store.Coherent)
    (call : StoreOp Key Value) :
    (store.apply call).Coherent := by
  cases call with
  | insert key value =>
      exact coherent.insert key value
  | remove key =>
      exact coherent.remove key
  | modify key update =>
      simp only [RamStore.apply, RamStore.modify]
      split
      · exact coherent
      · exact coherent.insert key _
  | getMutRef key write =>
      simp only [RamStore.apply, RamStore.getMutRef]
      cases store.cache[key]? with
      | none =>
          exact coherent
      | some value =>
          exact coherent.insert key (write value)
  | flush =>
      exact coherent.flush

theorem Coherent.run
    (coherent : store.Coherent)
    (calls : List (StoreOp Key Value)) :
    (store.run calls).Coherent := by
  induction calls generalizing store with
  | nil =>
      exact coherent
  | cons call rest inductionHypothesis =>
      exact inductionHypothesis (coherent.apply call)

omit [Std.TransOrd Key] [Std.LawfulEqOrd Key] [DecidableEq Key]
  [LawfulBackend Backend] in
theorem open_eq
    (rows : PersistenceBackend.rows store.backend = store.cache)
    (noDirty : store.dirty = ∅)
    (noRemoved : store.removed = ∅) :
    open_ store.backend = store := by
  rcases store with ⟨cache, dirty, removed, backend⟩
  dsimp only at rows noDirty noRemoved
  subst rows noDirty noRemoved
  rfl

omit [Std.LawfulEqOrd Key] [DecidableEq Key] [LawfulBackend Backend] in
theorem marks_of_flush_ok
    {store after : RamStore Backend Key Value}
    (flushed : store.flush = (.ok (), after)) :
    after.dirty = ∅ ∧ after.removed = ∅ := by
  unfold RamStore.flush at flushed
  split at flushed
  · rename_i clean
    cases flushed
    exact ⟨Std.ExtTreeSet.isEmpty_iff.mp clean.1,
      Std.ExtTreeSet.isEmpty_iff.mp clean.2⟩
  · split at flushed
    · cases flushed
      exact ⟨rfl, rfl⟩
    · cases flushed

end Runs

section Coded

variable {Key Value : Type} [Ord Key] [Std.TransOrd Key]
variable [Std.LawfulEqOrd Key] [DecidableEq Key]
variable {Raw : Type} [PersistenceBackend Raw String (List UInt8)]
variable [LawfulBackend Raw]

def openCoded
    (codec : Codec Key Value)
    (raw : Raw)
    (canonical : codec.Canonical (PersistenceBackend.rows raw)) :
    Except PersistError (RamStore (CodedBackend codec Raw) Key Value) :=
  match
      decoding :
        codec.decodeRows ∅ (PersistenceBackend.rows raw).toList with
  | .error reason => .error reason
  | .ok rows =>
      .ok (open_
        { raw := raw
          readable :=
            ⟨rows, Codec.Encodes.of_stored canonical decoding⟩ })

theorem openCoded_eq
    {codec : Codec Key Value}
    (backend : CodedBackend codec Raw) :
    openCoded codec backend.raw backend.encodes.canonical =
      .ok (open_ backend) := by
  have decoding := backend.encodes.decodeRows_eq
  unfold openCoded
  split
  · rename_i reason failed
    rw [decoding] at failed
    cases failed
  · rfl

/--
Over every sequence of calls on an opened store the marks stay right, a flush
that succeeds makes the stored rows the encoding of the cache, so that opening
them again gives the store back, and a flush that fails loses nothing.
-/
theorem run_coherent
    {codec : Codec Key Value}
    {raw : Raw}
    {store : RamStore (CodedBackend codec Raw) Key Value}
    (canonical : codec.Canonical (PersistenceBackend.rows raw))
    (opened : openCoded codec raw canonical = .ok store)
    (calls : List (StoreOp Key Value)) :
    (∀ key ∈ (store.run calls).dirty,
      key ∈ (store.run calls).cache ∧ key ∉ (store.run calls).removed) ∧
    (∀ key ∈ (store.run calls).removed, key ∉ (store.run calls).cache) ∧
    (∀ after, (store.run calls).flush = (.ok (), after) →
      after.cache = (store.run calls).cache ∧
        codec.Encodes (PersistenceBackend.rows after.backend.raw)
          after.cache ∧
        ∃ readable,
          openCoded codec after.backend.raw readable = .ok after) ∧
    (∀ reason after, (store.run calls).flush = (.error reason, after) →
      after.cache = (store.run calls).cache ∧
        after.dirty = (store.run calls).dirty ∧
        after.removed = (store.run calls).removed ∧
        codec.Encodes (PersistenceBackend.rows after.backend.raw)
          (PersistenceBackend.rows (store.run calls).backend)) := by
  have started : store.Coherent := by
    unfold openCoded at opened
    split at opened
    · cases opened
    · cases opened
      exact coherent_open _
  have coherent := started.run calls
  refine ⟨?_, coherent.removedGone, ?_, ?_⟩
  · intro key marked
    have cached := coherent.dirtyCached key marked
    exact ⟨cached, fun dropped => coherent.removedGone key dropped cached⟩
  · intro after flushed
    have kept : after.cache = (store.run calls).cache := by
      rw [← cache_flush (store.run calls), flushed]
    have rows : after.backend.rows = after.cache :=
      (coherent.rows_of_flush flushed).trans kept.symm
    rcases marks_of_flush_ok flushed with ⟨noDirty, noRemoved⟩
    have same : open_ after.backend = after :=
      open_eq rows noDirty noRemoved
    exact ⟨kept, rows ▸ after.backend.encodes,
      _, (openCoded_eq after.backend).trans (congrArg _ same)⟩
  · intro reason after flushed
    rcases unchanged_of_flush_error flushed with
      ⟨cache, dirty, removed, rows⟩
    exact ⟨cache, dirty, removed, rows ▸ after.backend.encodes⟩

end Coded

/-- Bytes as values, of which zero does not encode. -/
def sampleCodec : Codec String UInt8 where
  encodeKey key := key
  decodeKey raw := .ok raw
  encodeValue value := if value = 0 then .error .serde else .ok [value]
  decodeValue
    | [value] => .ok value
    | _ => .error .serde
  decode_encodeKey _ := rfl
  decode_encodeValue := by
    intro value bytes encoded
    split at encoded
    · cases encoded
    · cases encoded
      rfl

/-- One stored row, and a disk that refuses the first write. -/
def sampleBackend :
    CodedBackend sampleCodec (RowBackend String (List UInt8)) where
  raw :=
    { rows := Std.ExtTreeMap.insert ∅ "a" [1]
      faults := [true] }
  readable :=
    ⟨Std.ExtTreeMap.insert ∅ "a" 1, Codec.encodes_empty.insert "a" rfl⟩

/-- A removal, an insertion that does not encode, and a refused write. -/
def sampleCalls : List (StoreOp String UInt8) :=
  [.remove "a", .insert "b" 0, .flush, .insert "b" 2, .flush]

/-- The flush after both failures writes everything that was pending. -/
theorem run_coherent_after_failures :
    ∃ readable,
      openCoded sampleCodec
          ((open_ sampleBackend).run sampleCalls).flush.2.backend.raw
          readable =
        .ok ((open_ sampleBackend).run sampleCalls).flush.2 := by
  have flushed :
      ((open_ sampleBackend).run sampleCalls).flush.1 = .ok () := by
    rfl
  have coherent :=
    run_coherent sampleBackend.encodes.canonical
      (openCoded_eq sampleBackend) sampleCalls
  exact (coherent.2.2.1 _ (Prod.ext flushed rfl)).2.2

end RamStore

end Bwk
