import Bwk.OrderedMap

namespace Bwk

/-!
# Write-back stores

`persist/src/storage/ram.rs` and the backends it writes to.  A store answers
from its cache and collects the keys a flush has to write or delete.  What a
backend holds and whether a write reaches it are separate questions: a backend
carries the outcomes of its coming writes, so that every placement of a disk
failure is one value of the model.
-/

/-- Failure reported by a backend. -/
inductive PersistError where
  | io
  | serde
  deriving Repr, DecidableEq

/-- What a store needs of the place it writes to. -/
class PersistenceBackend
    (Backend : Type)
    (Key Value : outParam Type)
    [Ord Key] where
  rows : Backend → BTreeMap Key Value
  flushBatch :
    Backend → List (Key × Value) → List Key →
      Except PersistError Unit × Backend

/-- A backend that holds what was last written to it. -/
class LawfulBackend
    (Backend : Type)
    {Key Value : Type}
    [Ord Key] [Std.TransOrd Key]
    [PersistenceBackend Backend Key Value] : Prop where
  rows_of_ok :
    ∀ {backend after : Backend} {inserts removed},
      PersistenceBackend.flushBatch backend inserts removed =
          (.ok (), after) →
        PersistenceBackend.rows after =
          ((PersistenceBackend.rows backend).eraseAll removed).insertAll
            inserts
  rows_of_error :
    ∀ {backend after : Backend} {inserts removed reason},
      PersistenceBackend.flushBatch backend inserts removed =
          (.error reason, after) →
        PersistenceBackend.rows after = PersistenceBackend.rows backend

/-- The backend of a store that is not persisted. -/
structure NoopBackend (Key Value : Type) where
  deriving Repr

instance {Key Value : Type} [Ord Key] :
    PersistenceBackend (NoopBackend Key Value) Key Value where
  rows _ := ∅
  flushBatch backend _ _ := (.ok (), backend)

/-- A row-oriented backend (JSON file or SQLite table). -/
structure RowBackend (Key Value : Type) [Ord Key] where
  rows : BTreeMap Key Value
  /-- Whether each coming write fails; later ones succeed. -/
  faults : List Bool

def nextWrite : List Bool → Bool × List Bool
  | [] => (false, [])
  | fails :: later => (fails, later)

instance {Key Value : Type} [Ord Key] [Std.TransOrd Key] :
    PersistenceBackend (RowBackend Key Value) Key Value where
  rows backend := backend.rows
  flushBatch backend inserts removed :=
    let (fails, later) := nextWrite backend.faults
    if fails then
      (.error .io, { backend with faults := later })
    else
      (.ok (),
        { rows := (backend.rows.eraseAll removed).insertAll inserts
          faults := later })

instance {Key Value : Type} [Ord Key] [Std.TransOrd Key] :
    LawfulBackend (RowBackend Key Value) where
  rows_of_ok := by
    intro backend after inserts removed written
    simp only [PersistenceBackend.flushBatch] at written
    split at written
    · cases written
    · cases written
      rfl
  rows_of_error := by
    intro backend after inserts removed reason written
    simp only [PersistenceBackend.flushBatch] at written
    split at written
    · cases written
      rfl
    · cases written

/-- RAM-cached store over `Backend`. -/
structure RamStore (Backend Key Value : Type) [Ord Key] where
  cache : BTreeMap Key Value
  dirty : Std.ExtTreeSet Key
  removed : Std.ExtTreeSet Key
  backend : Backend

namespace RamStore

section Operations

variable {Backend Key Value : Type} [Ord Key] [Std.TransOrd Key]

/-- Load every row of `backend` into the cache. -/
def open_ [PersistenceBackend Backend Key Value] (backend : Backend) :
    RamStore Backend Key Value where
  cache := PersistenceBackend.rows backend
  dirty := ∅
  removed := ∅
  backend := backend

/-- A store that ignores what `backend` holds. -/
def empty (backend : Backend) : RamStore Backend Key Value where
  cache := ∅
  dirty := ∅
  removed := ∅
  backend := backend

def get (store : RamStore Backend Key Value) (key : Key) : Option Value :=
  store.cache[key]?

/-- Store a value and mark its key for the next flush. -/
def insert
    (store : RamStore Backend Key Value)
    (key : Key)
    (value : Value) :
    RamStore Backend Key Value :=
  { store with
    cache := store.cache.insert key value
    dirty := store.dirty.insert key
    removed := store.removed.erase key }

/-- Drop a key; only one that was cached has to be deleted by the flush. -/
def remove
    (store : RamStore Backend Key Value)
    (key : Key) :
    RamStore Backend Key Value :=
  { store with
    cache := store.cache.erase key
    dirty := store.dirty.erase key
    removed :=
      if key ∈ store.cache then store.removed.insert key else store.removed }

def modify
    (store : RamStore Backend Key Value)
    (key : Key)
    (update : Value → Value) :
    RamStore Backend Key Value :=
  match store.cache[key]? with
  | none => store
  | some value => store.insert key (update value)

/--
Borrow a cached value for writing: what it holds, and the store once the
borrower has written through it.
-/
def getMutRef
    (store : RamStore Backend Key Value)
    (key : Key) :
    Option (Value × (Value → RamStore Backend Key Value)) :=
  (store.cache[key]?).map
    (fun value => (value, fun written => store.insert key written))

def removeAll
    (store : RamStore Backend Key Value)
    (keys : List Key) :
    RamStore Backend Key Value :=
  keys.foldl remove store

/-- The rows a flush writes. -/
def pending (store : RamStore Backend Key Value) : List (Key × Value) :=
  store.dirty.toList.filterMap
    (fun key => (store.cache[key]?).map (fun value => (key, value)))

/-- Write the marked rows back; a failed write keeps them marked. -/
def flush
    [PersistenceBackend Backend Key Value]
    (store : RamStore Backend Key Value) :
    Except PersistError Unit × RamStore Backend Key Value :=
  if store.dirty.isEmpty ∧ store.removed.isEmpty then
    (.ok (), store)
  else
    match
        PersistenceBackend.flushBatch store.backend store.pending
          store.removed.toList with
    | (.ok _, backend) =>
        (.ok (), { store with dirty := ∅, removed := ∅, backend := backend })
    | (.error reason, backend) =>
        (.error reason, { store with backend := backend })

end Operations

section Cache

variable {Backend Key Value : Type} [Ord Key] [Std.TransOrd Key]

variable (store : RamStore Backend Key Value) (key : Key)

@[simp] theorem cache_insert
    (value : Value) :
    (store.insert key value).cache = store.cache.insert key value :=
  rfl

@[simp] theorem cache_remove :
    (store.remove key).cache = store.cache.erase key :=
  rfl

@[simp] theorem cache_removeAll
    (keys : List Key) :
    (store.removeAll keys).cache = store.cache.eraseAll keys := by
  induction keys generalizing store with
  | nil =>
      rfl
  | cons key rest inductionHypothesis =>
      exact inductionHypothesis (store.remove key)

theorem getElem?_cache_modify
    [Std.LawfulEqOrd Key] [DecidableEq Key]
    (key query : Key)
    (change : Value → Value) :
    (store.modify key change).cache[query]? =
      if key = query then
        (store.cache[query]?).map change
      else
        store.cache[query]? := by
  unfold modify
  split
  · rename_i missing
    split
    · rename_i same
      rw [← same, missing]
      rfl
    · rfl
  · rename_i value present
    rw [cache_insert, BTreeMap.getElem?_insert_eq]
    split
    · rename_i same
      rw [← same, present]
      rfl
    · rfl

@[simp] theorem cache_flush
    [PersistenceBackend Backend Key Value] :
    store.flush.2.cache = store.cache := by
  unfold flush
  split
  · rfl
  · split <;> rfl

end Cache

section Coherence

variable {Backend Key Value : Type} [Ord Key] [Std.TransOrd Key]
variable [PersistenceBackend Backend Key Value]

/--
The cache and the backend differ at most on marked keys, and the marks say
which way they differ.
-/
structure Coherent (store : RamStore Backend Key Value) : Prop where
  dirtyCached : ∀ key ∈ store.dirty, key ∈ store.cache
  removedGone : ∀ key ∈ store.removed, key ∉ store.cache
  agree :
    ∀ key, key ∉ store.dirty → key ∉ store.removed →
      (PersistenceBackend.rows store.backend)[key]? = store.cache[key]?

theorem coherent_open (backend : Backend) :
    (open_ backend : RamStore Backend Key Value).Coherent where
  dirtyCached := by simp [open_]
  removedGone := by simp [open_]
  agree := by simp [open_]

variable [Std.LawfulEqOrd Key] [DecidableEq Key]

variable {store : RamStore Backend Key Value}

theorem Coherent.insert
    (coherent : store.Coherent)
    (key : Key)
    (value : Value) :
    (store.insert key value).Coherent where
  dirtyCached := by
    intro query marked
    simp only [RamStore.insert, Std.ExtTreeSet.mem_insert,
      Std.ExtTreeMap.mem_insert, Std.compare_eq_iff_eq] at marked ⊢
    exact marked.imp_right (coherent.dirtyCached query)
  removedGone := by
    intro query marked
    simp only [RamStore.insert, Std.ExtTreeSet.mem_erase,
      Std.ExtTreeMap.mem_insert, Std.compare_eq_iff_eq, ne_eq,
      not_or] at marked ⊢
    exact ⟨marked.1, coherent.removedGone query marked.2⟩
  agree := by
    intro query clean kept
    simp only [RamStore.insert, Std.ExtTreeSet.mem_insert,
      Std.ExtTreeSet.mem_erase, Std.compare_eq_iff_eq, not_or, ne_eq,
      not_and] at clean kept
    have different : ¬ key = query := clean.1
    simp only [RamStore.insert, BTreeMap.getElem?_insert_eq, different,
      ↓reduceIte]
    exact coherent.agree query clean.2 (kept different)

theorem Coherent.remove
    (coherent : store.Coherent)
    (key : Key) :
    (store.remove key).Coherent where
  dirtyCached := by
    intro query marked
    simp only [RamStore.remove, Std.ExtTreeSet.mem_erase,
      Std.ExtTreeMap.mem_erase, Std.compare_eq_iff_eq, ne_eq] at marked ⊢
    exact ⟨marked.1, coherent.dirtyCached query marked.2⟩
  removedGone := by
    intro query marked
    simp only [RamStore.remove, Std.ExtTreeMap.mem_erase,
      Std.compare_eq_iff_eq, ne_eq, not_and]
    intro different
    apply coherent.removedGone
    simp only [RamStore.remove] at marked
    split at marked
    · simp only [Std.ExtTreeSet.mem_insert,
        Std.compare_eq_iff_eq] at marked
      exact marked.resolve_left different
    · exact marked
  agree := by
    intro query clean kept
    simp only [RamStore.remove, Std.ExtTreeSet.mem_erase,
      Std.compare_eq_iff_eq, ne_eq, not_and] at clean kept
    simp only [RamStore.remove, BTreeMap.getElem?_erase_eq]
    by_cases same : key = query
    · subst query
      -- A removed key was unmarked and uncached before, or it is marked now.
      by_cases cached : key ∈ store.cache
      · simp [cached] at kept
      · have unmarked : key ∉ store.dirty := fun marked =>
          cached (coherent.dirtyCached key marked)
        simp only [cached, ↓reduceIte] at kept
        rw [if_pos rfl, coherent.agree key unmarked kept]
        exact BTreeMap.not_mem_iff_getElem?.mp cached
    · rw [if_neg same]
      refine coherent.agree query (clean same) ?_
      split at kept
      · simp only [Std.ExtTreeSet.mem_insert, Std.compare_eq_iff_eq,
          not_or] at kept
        exact kept.2
      · exact kept

theorem Coherent.removeAll
    (coherent : store.Coherent)
    (keys : List Key) :
    (store.removeAll keys).Coherent := by
  induction keys generalizing store with
  | nil =>
      exact coherent
  | cons key rest inductionHypothesis =>
      exact inductionHypothesis (coherent.remove key)

theorem Coherent.pending_rows
    (coherent : store.Coherent) :
    ((PersistenceBackend.rows store.backend).eraseAll
        store.removed.toList).insertAll store.pending = store.cache := by
  have taken :
      ∀ entry ∈ store.pending, store.cache[entry.1]? = some entry.2 := by
    intro entry member
    simp only [pending, List.mem_filterMap, Option.map_eq_some_iff]
      at member
    obtain ⟨key, -, value, cached, shape⟩ := member
    subst shape
    exact cached
  have pendingKeys :
      ∀ key, key ∈ store.pending.map Prod.fst ↔ key ∈ store.dirty := by
    intro key
    constructor
    · intro member
      simp only [pending, List.mem_map, List.mem_filterMap,
        Option.map_eq_some_iff] at member
      obtain ⟨_, ⟨other, marked, value, -, shape⟩, same⟩ := member
      subst shape
      subst same
      exact Std.ExtTreeSet.mem_toList.mp marked
    · intro marked
      obtain ⟨value, cached⟩ :=
        BTreeMap.mem_iff_getElem?.mp (coherent.dirtyCached key marked)
      simp only [pending, List.mem_map, List.mem_filterMap,
        Option.map_eq_some_iff]
      exact ⟨(key, value),
        ⟨key, Std.ExtTreeSet.mem_toList.mpr marked, value, cached, rfl⟩,
        rfl⟩
  apply Std.ExtTreeMap.ext_getElem?
  intro key
  rw [BTreeMap.getElem?_insertAll_of_source _ taken,
    BTreeMap.getElem?_eraseAll]
  by_cases marked : key ∈ store.dirty
  · rw [if_pos ((pendingKeys key).mpr marked)]
  · rw [if_neg (fun member => marked ((pendingKeys key).mp member))]
    by_cases dropped : key ∈ store.removed
    · rw [if_pos (Std.ExtTreeSet.mem_toList.mpr dropped)]
      exact (BTreeMap.not_mem_iff_getElem?.mp
        (coherent.removedGone key dropped)).symm
    · rw [if_neg (fun member =>
        dropped (Std.ExtTreeSet.mem_toList.mp member))]
      exact coherent.agree key marked dropped

variable [LawfulBackend Backend]

theorem Coherent.rows_of_flush
    {store after : RamStore Backend Key Value}
    (coherent : store.Coherent)
    (flushed : store.flush = (.ok (), after)) :
    PersistenceBackend.rows after.backend = store.cache := by
  unfold RamStore.flush at flushed
  split at flushed
  · rename_i clean
    cases flushed
    have noDirty : store.dirty = ∅ := Std.ExtTreeSet.isEmpty_iff.mp clean.1
    have noRemoved : store.removed = ∅ :=
      Std.ExtTreeSet.isEmpty_iff.mp clean.2
    apply Std.ExtTreeMap.ext_getElem?
    intro key
    exact coherent.agree key (by simp [noDirty]) (by simp [noRemoved])
  · split at flushed
    · rename_i backend written
      cases flushed
      exact (LawfulBackend.rows_of_ok written).trans coherent.pending_rows
    · cases flushed

omit [Std.LawfulEqOrd Key] [DecidableEq Key] in
theorem unchanged_of_flush_error
    {store after : RamStore Backend Key Value}
    {reason : PersistError}
    (flushed : store.flush = (.error reason, after)) :
    after.cache = store.cache ∧ after.dirty = store.dirty ∧
      after.removed = store.removed ∧
      PersistenceBackend.rows after.backend =
        PersistenceBackend.rows store.backend := by
  unfold RamStore.flush at flushed
  split at flushed
  · cases flushed
  · split at flushed
    · cases flushed
    · rename_i failed backend written
      cases flushed
      exact ⟨rfl, rfl, rfl, LawfulBackend.rows_of_error written⟩

theorem Coherent.flush
    (coherent : store.Coherent) :
    store.flush.2.Coherent := by
  rcases flushed : store.flush with ⟨outcome, after⟩
  cases outcome with
  | ok value =>
      have rows := coherent.rows_of_flush flushed
      unfold RamStore.flush at flushed
      split at flushed
      · cases flushed
        exact coherent
      · split at flushed
        · cases flushed
          exact ⟨by simp, by simp, fun key _ _ => by rw [rows]⟩
        · cases flushed
  | error reason =>
      obtain ⟨cache, dirty, removed, rows⟩ :=
        unchanged_of_flush_error flushed
      show after.Coherent
      constructor
      · rw [cache, dirty]
        exact coherent.dirtyCached
      · rw [cache, removed]
        exact coherent.removedGone
      · rw [cache, dirty, removed, rows]
        exact coherent.agree

theorem Coherent.flush_ok
    (coherent : store.Coherent)
    (written :
      (PersistenceBackend.flushBatch store.backend store.pending
        store.removed.toList).1 = .ok ()) :
    ∃ after,
      store.flush = (.ok (), after) ∧
        after.cache = store.cache ∧
        PersistenceBackend.rows after.backend = store.cache := by
  have succeeded : store.flush.1 = .ok () := by
    unfold RamStore.flush
    split
    · rfl
    · split
      · rfl
      · rename_i failed
        rw [failed] at written
        cases written
  have flushed : store.flush = (.ok (), store.flush.2) :=
    Prod.ext succeeded rfl
  exact ⟨store.flush.2, flushed, cache_flush store,
    coherent.rows_of_flush flushed⟩

end Coherence

end RamStore

end Bwk
