import Bwk.RamStore
import Bwk.HeaderChain
import Bwk.Triples

namespace Bwk

/-!
# The header store and its writer operations

`HeaderStore` of `electrum/src/header_store.rs` with the mutators that run
under its lock, and the binary file of `persist/src/backend/headers.rs` they
write to.

A mutator may fail after it has already changed rows, so the locked code runs
in `EStateM`: whatever it did before an error stays.  Sums of heights are
overflow-checked; an overflow is a panic of the thread that computes it, which
is a failure of its own kind and not an `Err` a caller can handle.
-/

/-- The file of fixed-size records, as the rows it decodes to. -/
structure HeaderBackend (Raw : Type) where
  rows : HeaderMap Raw
  /-- Whether each coming file write fails; later ones succeed. -/
  faults : List Bool

namespace HeaderBackend

/-- Write the file; a failed write leaves the old rows. -/
def writeFile
    (backend : HeaderBackend Raw)
    (rows : HeaderMap Raw) :
    Except PersistError Unit × HeaderBackend Raw :=
  let (fails, later) := nextWrite backend.faults
  if fails then
    (.error .io, { backend with faults := later })
  else
    (.ok (), { rows := rows, faults := later })

/-- Rewrite the whole file; its rows must be contiguous. -/
def writeMap
    (backend : HeaderBackend Raw)
    (rows : HeaderMap Raw) :
    Except PersistError Unit × HeaderBackend Raw :=
  match rows.firstKey?, rows.lastKey? with
  | some minStored, some maxStored =>
      if maxStored - minStored + 1 ≠ rows.size then
        (.error .io, backend)
      else
        backend.writeFile rows
  | _, _ => backend.writeFile rows

/-- Write one row in place, or right after the last one. -/
def putRowPositional
    (backend : HeaderBackend Raw)
    (height : Nat)
    (raw : Raw) :
    Except PersistError Unit × HeaderBackend Raw :=
  match backend.rows.firstKey?, backend.rows.lastKey? with
  | some minStored, some maxStored =>
      if height < minStored ∨ height > saturatingSucc maxStored then
        backend.writeMap (backend.rows.insert height raw)
      else
        backend.writeFile (backend.rows.insert height raw)
  | _, _ => backend.writeMap ((∅ : HeaderMap Raw).insert height raw)

/-- Apply a batch: a single insertion is positional. -/
def flushBatch
    (backend : HeaderBackend Raw)
    (inserts : List (Nat × Raw))
    (removed : List Nat) :
    Except PersistError Unit × HeaderBackend Raw :=
  match removed, inserts with
  | [], [(height, raw)] => backend.putRowPositional height raw
  | _, _ =>
      backend.writeMap ((backend.rows.eraseAll removed).insertAll inserts)

instance : PersistenceBackend (HeaderBackend Raw) Nat Raw where
  rows backend := backend.rows
  flushBatch := flushBatch

variable {backend after : HeaderBackend Raw} {rows : HeaderMap Raw}
variable {height : Nat} {removed : List Nat} {raw : Raw}
variable {reason : PersistError} {low high : Nat}

theorem rows_of_writeFile
    (written : backend.writeFile rows = (.ok (), after)) :
    after.rows = rows := by
  simp only [writeFile] at written
  split at written
  · cases written
  · cases written
    rfl

theorem rows_of_writeMap
    (written : backend.writeMap rows = (.ok (), after)) :
    after.rows = rows := by
  unfold writeMap at written
  split at written
  · split at written
    · cases written
    · exact rows_of_writeFile written
  · exact rows_of_writeFile written

variable {backend : HeaderBackend Raw}

theorem writeFile_of_noFaults
    (noFaults : backend.faults = []) :
    backend.writeFile rows = (.ok (), { rows := rows, faults := [] }) := by
  simp [writeFile, noFaults, nextWrite]

private theorem writeMap_noFaults
    (noFaults : backend.faults = []) :
    (backend.writeMap rows).2.faults = [] := by
  unfold writeMap
  split
  · split
    · exact noFaults
    · rw [writeFile_of_noFaults noFaults]
  · rw [writeFile_of_noFaults noFaults]

theorem flushBatch_noFaults
    (inserts : List (Nat × Raw))
    (removed : List Nat)
    (noFaults : backend.faults = []) :
    (backend.flushBatch inserts removed).2.faults = [] := by
  unfold flushBatch
  split
  · unfold putRowPositional
    split
    · split
      · exact writeMap_noFaults noFaults
      · rw [writeFile_of_noFaults noFaults]
    · exact writeMap_noFaults noFaults
  · exact writeMap_noFaults noFaults

theorem writeFile_of_taken
    (taken : (nextWrite backend.faults).1 = false) :
    (backend.writeFile rows).1 = .ok () := by
  simp [writeFile, taken]

theorem writeMap_covers
    (taken : (nextWrite backend.faults).1 = false)
    (covers : rows.Covers low high)
    (ordered : low ≤ high) :
    (backend.writeMap rows).1 = .ok () := by
  simp [writeMap, covers.firstKey?_eq ordered, covers.lastKey?_eq ordered,
    covers.size_eq ordered, writeFile_of_taken taken]

theorem flushBatch_empties
    (taken : (nextWrite backend.faults).1 = false)
    (emptied : backend.rows.eraseAll removed = ∅) :
    (backend.flushBatch [] removed).1 = .ok () := by
  have first : (∅ : HeaderMap Raw).firstKey? = none :=
    BTreeMap.firstKey?_eq_none_iff.mpr rfl
  have nothing : backend.flushBatch [] removed = backend.writeMap ∅ := by
    rw [← emptied]
    cases removed <;> rfl
  rw [nothing]
  simp [writeMap, first, writeFile_of_taken taken]

private theorem rows_empty_of_noKeys
    (noKeys :
      ∀ minStored maxStored, rows.firstKey? = some minStored →
        rows.lastKey? = some maxStored → False) :
    rows = ∅ := by
  cases first : rows.firstKey? with
  | none =>
      exact BTreeMap.firstKey?_eq_none_iff.mp first
  | some minStored =>
      cases last : rows.lastKey? with
      | none =>
          exact BTreeMap.lastKey?_eq_none_iff.mp last
      | some maxStored =>
          exact (noKeys _ _ first last).elim

theorem flushBatch_ok
    {inserts : List (Nat × Raw)}
    (taken : (nextWrite backend.faults).1 = false)
    (covers :
      ((backend.rows.eraseAll removed).insertAll inserts).Covers low high)
    (ordered : low ≤ high) :
    (backend.flushBatch inserts removed).1 = .ok () := by
  unfold flushBatch
  split
  · rename_i height raw
    have whole :
        BTreeMap.Covers (backend.rows.insert height raw) low high := covers
    unfold putRowPositional
    split
    · split
      · exact writeMap_covers taken whole ordered
      · exact writeFile_of_taken taken
    · rename_i noKeys
      have nothing := rows_empty_of_noKeys noKeys
      rw [nothing] at whole
      exact writeMap_covers taken whole ordered
  · exact writeMap_covers taken covers ordered

private theorem rows_of_putRowPositional
    (written : backend.putRowPositional height raw = (.ok (), after)) :
    after.rows = backend.rows.insert height raw := by
  unfold putRowPositional at written
  split at written
  · split at written
    · exact rows_of_writeMap written
    · exact rows_of_writeFile written
  · rename_i noKeys
    rw [rows_empty_of_noKeys noKeys]
    exact rows_of_writeMap written

private theorem rows_of_writeFile_error
    (failed : backend.writeFile rows = (.error reason, after)) :
    after.rows = backend.rows := by
  simp only [writeFile] at failed
  split at failed
  · cases failed
    rfl
  · cases failed

private theorem rows_of_writeMap_error
    (failed : backend.writeMap rows = (.error reason, after)) :
    after.rows = backend.rows := by
  unfold writeMap at failed
  split at failed
  · split at failed
    · cases failed
      rfl
    · exact rows_of_writeFile_error failed
  · exact rows_of_writeFile_error failed

private theorem rows_of_putRowPositional_error
    (failed :
      backend.putRowPositional height raw = (.error reason, after)) :
    after.rows = backend.rows := by
  unfold putRowPositional at failed
  split at failed
  · split at failed
    · exact rows_of_writeMap_error failed
    · exact rows_of_writeFile_error failed
  · exact rows_of_writeMap_error failed

instance : LawfulBackend (HeaderBackend Raw) where
  rows_of_ok := by
    intro backend after inserts removed written
    simp only [PersistenceBackend.flushBatch, flushBatch] at written
    split at written
    · exact rows_of_putRowPositional written
    · exact rows_of_writeMap written
  rows_of_error := by
    intro backend after inserts removed reason written
    simp only [PersistenceBackend.flushBatch, flushBatch] at written
    split at written
    · exact rows_of_putRowPositional_error written
    · exact rows_of_writeMap_error written

end HeaderBackend

/-- Whether the stored chain may be relied on. -/
inductive HeaderValidationState where
  | unchecked
  | validating
  | valid
  | invalid (cause : InvalidCause)
  deriving Repr, DecidableEq

/-- Failure of a chain mutator. -/
inductive MutateError where
  | validate (error : ValidatorError)
  | persist (error : PersistError)
  | badAnchor
  | checkpoint
  | unlinked
  deriving Repr, DecidableEq

/-- How locked code ends early: with an `Err`, or with a panic. -/
inductive Abort where
  | error (reason : MutateError)
  | panic
  deriving Repr, DecidableEq

/-- What the lock guards. -/
structure Inner (Backend Raw : Type) where
  store : RamStore Backend Nat Raw
  validationState : HeaderValidationState

/-- The chain a store answers from. -/
def Inner.chain (inner : Inner Backend Raw) : HeaderMap Raw :=
  inner.store.cache

/-- Code running under the lock. -/
abbrev Locked (Backend Raw : Type) :=
  EStateM Abort (Inner Backend Raw)

/-- The process-wide header chain. -/
structure HeaderStore (Backend Raw : Type) where
  network : Network
  checkpoint : Option Checkpoint
  inner : Inner Backend Raw
  writerToken : Nat
  stopped : Bool
  extendDown : Option Nat
  /-- Ghost: what the lock guarded each time a writer released it. -/
  released : List (Inner Backend Raw)

section Locked

variable {Backend Raw : Type} [PersistenceBackend Backend Nat Raw]

/-- Turn a validator verdict into the locked code's early return. -/
def judge (verdict : Except ValidatorError Unit) : Locked Backend Raw Unit :=
  match verdict with
  | .ok () => pure ()
  | .error reason => throw (.error (.validate reason))

/-- `deserialize(raw).map_err(|_| MalformedHeader)?`. -/
def decode (btc : Bitcoin Raw) (raw : Raw) : Locked Backend Raw Header :=
  match btc.deserialize raw with
  | some header => pure header
  | none => throw (.error (.validate .malformedHeader))

/-- `inner.store.insert(height, raw)?`. -/
def insertRow (height : Nat) (raw : Raw) : Locked Backend Raw Unit :=
  modify (fun inner =>
    { inner with store := inner.store.insert height raw })

def removeRows (heights : List Nat) : Locked Backend Raw Unit :=
  modify (fun inner =>
    { inner with store := inner.store.removeAll heights })

/-- `inner.store.flush()?`. -/
def flushRows : Locked Backend Raw Unit :=
  fun inner =>
    match inner.store.flush with
    | (.ok (), store) => .ok () { inner with store := store }
    | (.error reason, store) =>
        .error (.error (.persist reason)) { inner with store := store }

def setValidationState
    (state : HeaderValidationState) : Locked Backend Raw Unit :=
  modify (fun inner => { inner with validationState := state })

/-- `left + right` on heights. -/
def addHeights (left right : Nat) : Locked Backend Raw Nat :=
  if left + right ≤ u32Max then pure (left + right) else throw .panic

/-- Remove every row and flush. -/
def clearInner : Locked Backend Raw Unit := do
  let inner ← get
  removeRows inner.store.cache.keys
  flushRows

/--
Refuse the chain when `raw` is another block than the checkpoint: the whole
chain goes, not just this header.
-/
def holdCheckpoint
    (btc : Bitcoin Raw)
    (checkpoint : Option Checkpoint)
    (height : Nat)
    (raw : Raw) : Locked Backend Raw Unit :=
  if holdsCheckpoint btc checkpoint height raw then
    pure ()
  else do
    clearInner
    setValidationState (.invalid .checkpoint)
    throw (.error .checkpoint)

/-- Rows already flagged invalid are not promoted by one valid append. -/
def afterAppend
    (wasEmpty : Bool) :
    HeaderValidationState → HeaderValidationState
  | .validating => .validating
  | .invalid cause => if wasEmpty then .valid else .invalid cause
  | .unchecked | .valid => .valid

/-- The locked part of `append`. -/
def appendLocked
    (btc : Bitcoin Raw)
    (network : Network)
    (checkpoint : Option Checkpoint)
    (height : Nat)
    (raw : Raw)
    (incoming : Header)
    (nowSecs : Nat) : Locked Backend Raw Unit := do
  let inner ← get
  let ancestors :=
    collectAncestors btc height (retargetInterval btc network)
      inner.store.get
  judge (validateAppend btc network ancestors height incoming nowSecs)
  holdCheckpoint btc checkpoint height raw
  let before ← get
  let wasEmpty := before.store.cache.isEmpty
  insertRow height raw
  flushRows
  let after ← get
  setValidationState (afterAppend wasEmpty after.validationState)

/-- The loop of `append_batch`, from the `index`-th header on. -/
def appendRows
    (btc : Bitcoin Raw)
    (network : Network)
    (checkpoint : Option Checkpoint)
    (now : Nat → Nat)
    (wasEmpty : Bool)
    (start : Nat) :
    Nat → List Header → List Raw → Locked Backend Raw Unit
  | _, _, [] => pure ()
  | index, ancestors, raw :: rest => do
      let height ← addHeights start index
      let header ← decode btc raw
      if wasEmpty ∧ index = 0 ∧ height > 0 then
        if height % retargetInterval btc network ≠ 0 then
          throw (.error .badAnchor)
        judge (checkPow btc (Params.new btc network) header)
      else
        judge
          (validateAppend btc network ancestors height header (now index))
      holdCheckpoint btc checkpoint height raw
      insertRow height raw
      appendRows btc network checkpoint now wasEmpty start (index + 1)
        (slideWindow (retargetInterval btc network) ancestors header) rest

/-- The locked part of `append_batch`. -/
def appendBatchLocked
    (btc : Bitcoin Raw)
    (network : Network)
    (checkpoint : Option Checkpoint)
    (now : Nat → Nat)
    (start : Nat)
    (raws : List Raw) : Locked Backend Raw Unit := do
  let inner ← get
  let wasEmpty := inner.store.cache.isEmpty
  let ancestors :=
    if wasEmpty then
      []
    else
      collectAncestors btc start (retargetInterval btc network)
        inner.store.get
  appendRows btc network checkpoint now wasEmpty start 0 ancestors raws
  flushRows
  setValidationState .valid

/-- Insert rows that were judged elsewhere, each held to the checkpoint. -/
def insertHeld
    (btc : Bitcoin Raw)
    (checkpoint : Option Checkpoint) :
    List (Nat × Raw) → Locked Backend Raw Unit
  | [] => pure ()
  | (height, raw) :: rest => do
      holdCheckpoint btc checkpoint height raw
      insertRow height raw
      insertHeld btc checkpoint rest

/-- The locked part of `replace_branch`. -/
def replaceBranchLocked
    (btc : Bitcoin Raw)
    (checkpoint : Option Checkpoint)
    (forkHeight : Nat)
    (branch : HeaderMap Raw) : Locked Backend Raw Unit := do
  let inner ← get
  removeRows (inner.store.cache.keys.filter (fun key => key > forkHeight))
  insertHeld btc checkpoint branch.toList
  flushRows
  setValidationState .valid

/-- The headers from `low` up, topped by the stored floor header. -/
def prependRange
    (low floor : Nat)
    (raws : List Raw)
    (floorRaw : Raw) : HeaderMap Raw :=
  ((∅ : HeaderMap Raw).insertAll
    ((List.range' low raws.length).zip raws)).insert floor floorRaw

/-- The locked part of `prepend`. -/
def prependLocked
    (btc : Bitcoin Raw)
    (network : Network)
    (checkpoint : Option Checkpoint)
    (nowSecs low floor : Nat)
    (raws : List Raw) : Locked Backend Raw Unit := do
  let inner ← get
  match inner.store.get floor with
  | none => throw (.error .unlinked)
  | some floorRaw => do
      let range := prependRange low floor raws floorRaw
      judge (replayValidate btc network range nowSecs)
      insertHeld btc checkpoint
        (range.toList.filter (fun row => row.1 < floor))
      flushRows

end Locked

namespace HeaderStore

variable {Backend Raw : Type} [PersistenceBackend Backend Nat Raw]

def chain (store : HeaderStore Backend Raw) : HeaderMap Raw :=
  store.inner.chain

/-- Let the lock go on `inner`. -/
def release
    (store : HeaderStore Backend Raw)
    (inner : Inner Backend Raw) : HeaderStore Backend Raw :=
  { store with inner := inner, released := store.released ++ [inner] }

/-- Run `body` under the lock, but only for the authoritative writer. -/
def withWriter
    (store : HeaderStore Backend Raw)
    (token : Nat)
    (body : Locked Backend Raw Unit) :
    Except Abort Unit × HeaderStore Backend Raw :=
  if store.writerToken ≠ token then
    (.ok (), store)
  else
    match body store.inner with
    | .ok () inner => (.ok (), store.release inner)
    | .error reason inner => (.error reason, store.release inner)

def append
    (btc : Bitcoin Raw)
    (nowSecs token height : Nat)
    (raw : Raw)
    (store : HeaderStore Backend Raw) :
    Except Abort Unit × HeaderStore Backend Raw :=
  match btc.deserialize raw with
  | none => (.error (.error (.validate .malformedHeader)), store)
  | some incoming =>
      store.withWriter token
        (appendLocked btc store.network store.checkpoint height raw
          incoming nowSecs)

/-- Append a run of headers, anchoring an empty store at the first. -/
def appendBatch
    (btc : Bitcoin Raw)
    (now : Nat → Nat)
    (token start : Nat)
    (raws : List Raw)
    (store : HeaderStore Backend Raw) :
    Except Abort Unit × HeaderStore Backend Raw :=
  if raws = [] then
    (.ok (), store)
  else
    store.withWriter token
      (appendBatchLocked btc store.network store.checkpoint now start raws)

/-- Replace everything above `forkHeight` by `branch`. -/
def replaceBranch
    (btc : Bitcoin Raw)
    (token forkHeight : Nat)
    (branch : HeaderMap Raw)
    (store : HeaderStore Backend Raw) :
    Except Abort Unit × HeaderStore Backend Raw :=
  store.withWriter token
    (replaceBranchLocked btc store.checkpoint forkHeight branch)

/-- Prepend the headers from `low` up to the stored floor. -/
def prepend
    (btc : Bitcoin Raw)
    (nowSecs token low : Nat)
    (raws : List Raw)
    (store : HeaderStore Backend Raw) :
    Except Abort Unit × HeaderStore Backend Raw :=
  if low + raws.length > u32Max then
    (.error .panic, store)
  else
    store.withWriter token
      (prependLocked btc store.network store.checkpoint nowSecs low
        (low + raws.length) raws)

/-- Wipe the chain; a failed clear is only logged. -/
def wipe
    (token : Nat)
    (store : HeaderStore Backend Raw) : HeaderStore Backend Raw :=
  (store.withWriter token clearInner).2

def minHeight (store : HeaderStore Backend Raw) : Option Nat :=
  store.chain.firstKey?

/-- Highest stored height. -/
def tip (store : HeaderStore Backend Raw) : Option Nat :=
  store.chain.lastKey?

def header
    (btc : Bitcoin Raw)
    (store : HeaderStore Backend Raw)
    (height : Nat) : Option Header :=
  (store.chain[height]?).bind btc.deserialize

def blockHash
    (btc : Bitcoin Raw)
    (store : HeaderStore Backend Raw)
    (height : Nat) : Option BlockHash :=
  (store.header btc height).map btc.blockHash

def tipWithHash
    (btc : Bitcoin Raw)
    (store : HeaderStore Backend Raw) : Option (Nat × BlockHash) := do
  let tip ← store.tip
  let hash ← store.blockHash btc tip
  some (tip, hash)

/-- Ask for the chain to be extended down to `height`. -/
def requestExtendDown
    (height : Nat)
    (store : HeaderStore Backend Raw) : HeaderStore Backend Raw :=
  if store.minHeight.all (fun floor => height ≥ floor) then
    store
  else if store.extendDown.any (fun lowest => lowest ≤ height) then
    store
  else
    { store with extendDown := some height }

/-- Close the connections and idle the worker. -/
def stop (store : HeaderStore Backend Raw) : HeaderStore Backend Raw :=
  { store with stopped := true }

/-- Hand the store over to a fresh worker under a new token. -/
def restart (store : HeaderStore Backend Raw) : HeaderStore Backend Raw :=
  { store with
    stopped := false
    writerToken := store.writerToken + 1 }

/-- A store over opened rows, before they are looked at. -/
def load
    (network : Network)
    (checkpoint : Option Checkpoint)
    (backend : Backend) : HeaderStore Backend Raw where
  network := network
  checkpoint := checkpoint
  inner :=
    { store := RamStore.open_ backend
      validationState := .unchecked }
  writerToken := 0
  stopped := false
  extendDown := none
  released := []

/-- Empty the store whatever the token. -/
def clearStore (store : HeaderStore Backend Raw) :
    HeaderStore Backend Raw :=
  match clearInner store.inner with
  | .ok () inner => { store with inner := inner }
  | .error _ inner => { store with inner := inner }

/--
Judge the loaded rows; a chain that fails is wiped before the verdict shows.
The source replays on another thread while every writer waits for it, so only
the settled store is of interest.
-/
def startReplayValidation
    (btc : Bitcoin Raw)
    (nowSecs : Nat)
    (store : HeaderStore Backend Raw) : HeaderStore Backend Raw :=
  let settle (store : HeaderStore Backend Raw)
      (state : HeaderValidationState) : HeaderStore Backend Raw :=
    { store with inner := { store.inner with validationState := state } }
  if store.chain.isEmpty then
    settle store .valid
  else
    match sanityCheck btc store.network store.checkpoint store.chain with
    | .error cause => settle store.clearStore (.invalid cause)
    | .ok () =>
        match replayValidate btc store.network store.chain nowSecs with
        | .error reason =>
            settle store.clearStore (.invalid (.validator reason))
        | .ok () => settle store .valid

/-- `with_checkpoint`: open persisted rows and settle their validity. -/
def withCheckpoint
    (btc : Bitcoin Raw)
    (nowSecs : Nat)
    (network : Network)
    (checkpoint : Option Checkpoint)
    (backend : Backend) : HeaderStore Backend Raw :=
  (load network checkpoint backend).startReplayValidation btc nowSecs

end HeaderStore

/-- A call of one of the writer operations. -/
inductive WriterOp (Raw : Type) where
  | append (nowSecs height : Nat) (raw : Raw)
  | appendBatch (now : Nat → Nat) (start : Nat) (raws : List Raw)
  | replaceBranch (forkHeight : Nat) (branch : HeaderMap Raw)
  | prepend (nowSecs low : Nat) (raws : List Raw)

/-- Make the call. -/
def WriterOp.apply
    [PersistenceBackend Backend Nat Raw]
    (btc : Bitcoin Raw)
    (token : Nat)
    (store : HeaderStore Backend Raw) :
    WriterOp Raw → Except Abort Unit × HeaderStore Backend Raw
  | .append nowSecs height raw => store.append btc nowSecs token height raw
  | .appendBatch now start raws => store.appendBatch btc now token start raws
  | .replaceBranch forkHeight branch =>
      store.replaceBranch btc token forkHeight branch
  | .prepend nowSecs low raws => store.prepend btc nowSecs token low raws

end Bwk
