import Bwk.HeaderFile

namespace Bwk

/-!
# The header file is a height map

Seen from outside, the binary file is a map from heights to records whose
heights leave no gap.  The abstract model below says what each operation does
to such a map; every way the file is written computes the same thing, and on
the same bytes.
-/

namespace HeaderFile

open FixedRecords

/-- The heights of a map leave no gap. -/
def Contiguous (rows : HeaderMap Bytes) : Prop :=
  ∀ low middle high, low ∈ rows → high ∈ rows →
    low ≤ middle → middle ≤ high → middle ∈ rows

/-- The row an insert names, if its key and its record are well formed. -/
def namedInsert
    (recordSize : Nat)
    (row : String × Bytes) :
    Option (Nat × Bytes) :=
  if row.2.length = recordSize then
    (parseHeight row.1).map (fun height => (height, row.2))
  else
    none

/-- The rows and heights of a request, if all of them are well formed. -/
def requested
    (recordSize : Nat)
    (inserts : List (String × Bytes))
    (removed : List String) :
    Option (List (Nat × Bytes) × List Nat) := do
  let dropped ← removed.mapM parseHeight
  let stored ← inserts.mapM (namedInsert recordSize)
  some (stored, dropped)

open Classical in
/-- The removals, then the inserts; refused when that leaves a gap. -/
noncomputable def written
    (recordSize : Nat)
    (rows : HeaderMap Bytes)
    (inserts : List (String × Bytes))
    (removed : List String) :
    Option (HeaderMap Bytes) :=
  match requested recordSize inserts removed with
  | none => none
  | some (stored, dropped) =>
      let after := (rows.eraseAll dropped).insertAll stored
      if Contiguous after then some after else none

/--
A well-formed file and the map it encodes: no file, or the records of
consecutive heights below the last `u32`.
-/
def Encodes
    (recordSize : Nat)
    (file : Option Bytes)
    (rows : HeaderMap Bytes) :
    Prop :=
  (file = none ∧ rows = ∅) ∨
    ∃ low records,
      file = some (fileOf low records) ∧
      Uniform recordSize records ∧
      low + records.length ≤ u32Max ∧
      Stacked rows low records

theorem contiguous_empty : Contiguous ∅ := by
  intro low middle high member
  simp at member

variable {rows : HeaderMap Bytes}

theorem contiguous_of_covers
    {low high : Nat}
    (covers : rows.Covers low high) :
    Contiguous rows := by
  intro first middle last firstIn lastIn after before
  rw [covers] at firstIn lastIn ⊢
  omega

theorem covers_of_contiguous
    {low high : Nat}
    (contiguous : Contiguous rows)
    (first : rows.firstKey? = some low)
    (last : rows.lastKey? = some high) :
    rows.Covers low high ∧ low ≤ high := by
  have sorted := BTreeMap.keys_sorted rows
  obtain ⟨rest, lowShape⟩ : ∃ rest, rows.keys = low :: rest :=
    List.head?_eq_some_iff.mp first
  obtain ⟨leading, highShape⟩ : ∃ leading, rows.keys = leading ++ [high] :=
    List.getLast?_eq_some_iff.mp last
  have lowIn : low ∈ rows := by
    rw [← Std.ExtTreeMap.mem_keys, lowShape]
    exact List.mem_cons_self
  have highIn : high ∈ rows := by
    rw [← Std.ExtTreeMap.mem_keys, highShape]
    exact List.mem_append_right _ List.mem_cons_self
  have bounds : ∀ key ∈ rows, low ≤ key ∧ key ≤ high := by
    intro key member
    rw [← Std.ExtTreeMap.mem_keys] at member
    constructor
    · rw [lowShape] at member sorted
      rcases List.mem_cons.mp member with same | later
      · exact Nat.le_of_eq same.symm
      · exact Nat.le_of_lt ((List.pairwise_cons.mp sorted).1 key later)
    · rw [highShape] at member sorted
      rcases List.mem_append.mp member with earlier | same
      · exact Nat.le_of_lt
          ((List.pairwise_append.mp sorted).2.2 key earlier high
            List.mem_cons_self)
      · exact Nat.le_of_eq (List.mem_singleton.mp same)
  refine ⟨?_, (bounds high highIn).1⟩
  intro key
  constructor
  · exact bounds key
  · intro within
    exact contiguous low key high lowIn highIn within.1 within.2

theorem ends_of_nonempty
    (nonempty : rows ≠ ∅) :
    ∃ low high, rows.firstKey? = some low ∧ rows.lastKey? = some high := by
  cases first : rows.firstKey? with
  | none =>
      exact absurd (BTreeMap.firstKey?_eq_none_iff.mp first) nonempty
  | some low =>
      cases last : rows.lastKey? with
      | none =>
          exact absurd (BTreeMap.lastKey?_eq_none_iff.mp last) nonempty
      | some high =>
          exact ⟨low, high, rfl, rfl⟩

theorem stacked_of_contiguous
    (contiguous : Contiguous rows) :
    Stacked rows (rows.firstKey?.getD 0) (rows.toList.map Prod.snd) := by
  by_cases empty : rows = ∅
  · subst empty
    exact stacked_nil.mpr rfl
  · rcases ends_of_nonempty empty with ⟨low, high, first, last⟩
    rcases covers_of_contiguous contiguous first last with
      ⟨covers, ordered⟩
    rw [first]
    exact stacked_of_covers covers ordered

theorem collectRows_eq
    {minStored : Nat}
    (index : Nat)
    {chunks : List Bytes}
    (fits : minStored + index + chunks.length ≤ u32Max + 1)
    (out : HeaderMap Bytes)
    (file : Option Bytes) :
    ∃ rows, collectRows minStored index chunks out file = .ok rows file ∧
      ∀ key, rows[key]? =
        if minStored + index ≤ key ∧
            key < minStored + index + chunks.length then
          chunks[key - (minStored + index)]?
        else
          out[key]? := by
  induction chunks generalizing index out with
  | nil =>
      refine ⟨out, rfl, ?_⟩
      intro key
      rw [if_neg (by simp only [List.length_nil]; omega)]
  | cons chunk rest inductionHypothesis =>
      rw [List.length_cons] at fits
      rcases inductionHypothesis (index + 1) (by omega)
          (out.insert (minStored + index) chunk) with
        ⟨rows, collected, lookups⟩
      have small : index % (u32Max + 1) = index :=
        Nat.mod_eq_of_lt (by omega)
      have added :
          addHeights minStored index file = .ok (minStored + index) file := by
        rw [addHeights, if_pos (by omega)]
        rfl
      refine ⟨rows, ?_, ?_⟩
      · simp only [collectRows, small, bind, EStateM.bind, added]
        exact collected
      · intro key
        rw [lookups key, BTreeMap.getElem?_insert_eq, List.length_cons]
        by_cases here : minStored + index = key
        · subst here
          rw [if_neg (by omega), if_pos rfl, if_pos (by omega),
            Nat.sub_self]
          rfl
        · rw [if_neg here]
          by_cases later :
              minStored + (index + 1) ≤ key ∧
                key < minStored + (index + 1) + rest.length
          · have shift :
                key - (minStored + index) =
                  (key - (minStored + (index + 1))) + 1 := by
              omega
            rw [if_pos later, if_pos (by omega), shift,
              List.getElem?_cons_succ]
          · rw [if_neg later, if_neg (by omega)]

variable {recordSize : Nat} {file : Option Bytes}

theorem loadMap_eq
    (positive : 0 < recordSize)
    (encodes : Encodes recordSize file rows) :
    loadMap recordSize file = .ok rows file := by
  rcases encodes with
    ⟨missing, empty⟩ | ⟨low, records, present, uniform, bounded, stacked⟩
  · subst missing empty
    rfl
  · subst present
    have length :
        (fileOf low records).length =
          cachePrefixLen + records.flatten.length := by
      rw [fileOf, List.length_append, length_prefix]
    have magic : (fileOf low records).take 4 = cacheMagic := rfl
    have lowest :
        fromLeBytes (((fileOf low records).drop 4).take 4) = low :=
      fromLeBytes_toLeBytes (by omega)
    have body :
        (fileOf low records).drop cachePrefixLen = records.flatten := rfl
    have whole : records.flatten.length % recordSize = 0 := by
      rw [uniform.length_flatten, Nat.mul_mod_left]
    have count : records.flatten.length / recordSize = records.length := by
      rw [uniform.length_flatten, Nat.mul_div_cancel _ positive]
    have fits : low + 0 + records.length ≤ u32Max + 1 := by omega
    rcases collectRows_eq 0 fits ∅ (some (fileOf low records)) with
      ⟨found, collected, lookups⟩
    have same : found = rows := by
      apply Std.ExtTreeMap.ext_getElem?
      intro key
      rw [lookups key, stacked key, Nat.add_zero]
      by_cases above : low ≤ key
      · rw [if_pos above]
        split
        · rfl
        · rw [List.getElem?_eq_none (by omega)]
          rfl
      · rw [if_neg above, if_neg (by omega)]
        rfl
    subst same
    have recognized :
        ¬((fileOf low records).length < cachePrefixLen ∨
          (fileOf low records).take 4 ≠ cacheMagic) := by
      rw [length, magic]
      simp
    simp only [loadMap, bind, EStateM.bind, get, getThe, MonadStateOf.get,
      EStateM.get, if_neg recognized, body, whole, lowest, count, ne_eq,
      not_true_eq_false, ↓reduceIte, uniform.chunksExact_flatten]
    exact collected

/-- The file a map without gaps is written to. -/
def rendered (rows : HeaderMap Bytes) : Bytes :=
  fileOf (rows.firstKey?.getD 0) (rows.toList.map Prod.snd)

def Sized (recordSize : Nat) (rows : HeaderMap Bytes) : Prop :=
  ∀ (height : Nat) (raw : Bytes),
    rows[height]? = some raw → raw.length = recordSize

/-- Every height of a map is below the last `u32`. -/
def Bounded (rows : HeaderMap Bytes) : Prop :=
  ∀ height, height ∈ rows → height < u32Max

theorem Encodes.sized
    (encodes : Encodes recordSize file rows) :
    Sized recordSize rows := by
  intro height raw present
  rcases encodes with
    ⟨-, empty⟩ | ⟨low, records, -, uniform, -, stacked⟩
  · simp [empty] at present
  · rw [stacked height] at present
    split at present
    · exact uniform raw (List.mem_of_getElem? present)
    · cases present

theorem Encodes.bounded
    (encodes : Encodes recordSize file rows) :
    Bounded rows := by
  intro height member
  rcases encodes with
    ⟨-, empty⟩ | ⟨low, records, -, -, bounded, stacked⟩
  · simp [empty] at member
  · obtain ⟨raw, present⟩ := BTreeMap.mem_iff_getElem?.mp member
    rw [stacked height] at present
    split at present
    · have inside := (List.getElem?_eq_some_iff.mp present).1
      omega
    · cases present

theorem encodes_rendered
    (sized : Sized recordSize rows)
    (bounded : Bounded rows)
    (contiguous : Contiguous rows) :
    Encodes recordSize (some (rendered rows)) rows := by
  refine Or.inr ⟨_, _, rfl, ?_, ?_, stacked_of_contiguous contiguous⟩
  · intro raw member
    obtain ⟨row, listed, same⟩ := List.mem_map.mp member
    rw [← same]
    exact sized row.1 row.2
      (Std.ExtTreeMap.mem_toList_iff_getElem?_eq_some.mp listed)
  · by_cases empty : rows = ∅
    · subst empty
      exact Nat.zero_le _
    · rcases ends_of_nonempty empty with ⟨low, high, first, last⟩
      rcases covers_of_contiguous contiguous first last with
        ⟨covers, ordered⟩
      have top := bounded high ((covers high).mpr ⟨ordered, Nat.le_refl _⟩)
      rw [first, Option.getD_some, List.length_map,
        Std.ExtTreeMap.length_toList, covers.size_eq ordered]
      omega

theorem writeMap_eq
    (sized : Sized recordSize rows)
    (file : Option Bytes)
    [Decidable (Contiguous rows)] :
    writeMap recordSize rows file =
      if Contiguous rows then
        .ok () (some (rendered rows))
      else
        .error (.error .io) file := by
  have lengths :
      (rows.toList.map Prod.snd).all
        (fun raw => raw.length = recordSize) = true := by
    rw [List.all_eq_true]
    intro raw member
    obtain ⟨row, listed, same⟩ := List.mem_map.mp member
    rw [decide_eq_true_eq, ← same]
    exact sized row.1 row.2
      (Std.ExtTreeMap.mem_toList_iff_getElem?_eq_some.mp listed)
  have stores :
      ∀ minStored,
        writeRecords recordSize minStored (rows.toList.map Prod.snd) file =
          .ok () (some (fileOf minStored (rows.toList.map Prod.snd))) := by
    intro minStored
    rw [writeRecords, if_pos lengths]
    rfl
  by_cases empty : rows = ∅
  · have none : rows.lastKey? = none :=
      BTreeMap.lastKey?_eq_none_iff.mpr empty
    rw [if_pos (empty ▸ contiguous_empty), writeMap, none]
    exact stores _
  · rcases ends_of_nonempty empty with ⟨low, high, first, last⟩
    simp only [writeMap, first, last, Option.getD_some]
    by_cases contiguous : Contiguous rows
    · rcases covers_of_contiguous contiguous first last with
        ⟨covers, ordered⟩
      rw [if_pos contiguous, if_neg (not_not.mpr
        (covers.size_eq ordered).symm), stores, rendered, first]
      rfl
    · have broken : high - low + 1 ≠ rows.size := by
        intro span
        exact contiguous
          (contiguous_of_covers (BTreeMap.covers_of_span first last span).1)
      rw [if_neg contiguous, if_pos broken]
      rfl

theorem writeMap_stacked
    {recordSize low : Nat}
    {records : List Bytes}
    (stacked : Stacked rows low records)
    (uniform : Uniform recordSize records)
    (nonempty : records ≠ [])
    (file : Option Bytes) :
    writeMap recordSize rows file = .ok () (some (fileOf low records)) := by
  have positive := List.length_pos_iff.mpr nonempty
  have covers := stacked.covers nonempty
  have sized : Sized recordSize rows := by
    intro height raw present
    rw [stacked height] at present
    split at present
    · exact uniform raw (List.mem_of_getElem? present)
    · cases present
  have lookup : rendered rows = fileOf low records := by
    rw [rendered, covers.firstKey?_eq (by omega), stacked.values_eq]
    rfl
  classical
  rw [writeMap_eq sized, if_pos (contiguous_of_covers covers), lookup]

theorem removeKeys_eq
    (rows : HeaderMap Bytes)
    (removed : List String)
    (file : Option Bytes) :
    removeKeys rows removed file =
      match removed.mapM parseHeight with
      | some heights => .ok (rows.eraseAll heights) file
      | none => .error (.error .io) file := by
  induction removed generalizing rows with
  | nil =>
      rfl
  | cons key rest inductionHypothesis =>
      cases named : parseHeight key with
      | none =>
          simp only [removeKeys, parseKey, named, bind, EStateM.bind,
            List.mapM_cons, Option.bind]
          rfl
      | some height =>
          have later := inductionHypothesis (rows.erase height)
          simp only [removeKeys, parseKey, named, bind, EStateM.bind, pure,
            EStateM.pure, later, List.mapM_cons, Option.bind]
          cases rest.mapM parseHeight <;> rfl

theorem insertKeys_eq
    (recordSize : Nat)
    (rows : HeaderMap Bytes)
    (inserts : List (String × Bytes))
    (file : Option Bytes) :
    insertKeys recordSize rows inserts file =
      match inserts.mapM (namedInsert recordSize) with
      | some stored => .ok (rows.insertAll stored) file
      | none => .error (.error .io) file := by
  induction inserts generalizing rows with
  | nil =>
      rfl
  | cons row rest inductionHypothesis =>
      rcases row with ⟨key, bytes⟩
      by_cases sized : bytes.length = recordSize
      · cases named : parseHeight key with
        | none =>
            have refused : namedInsert recordSize (key, bytes) = none := by
              simp only [namedInsert, sized, ↓reduceIte, named, Option.map]
            simp only [insertKeys, parseKey, named, sized, ne_eq,
              not_true_eq_false, ↓reduceIte, bind, EStateM.bind,
              List.mapM_cons, refused, Option.bind]
            rfl
        | some height =>
            have taken :
                namedInsert recordSize (key, bytes) =
                  some (height, bytes) := by
              simp only [namedInsert, sized, ↓reduceIte, named, Option.map]
            have later := inductionHypothesis (rows.insert height bytes)
            simp only [insertKeys, parseKey, named, sized, ne_eq,
              not_true_eq_false, ↓reduceIte, bind, EStateM.bind, pure,
              EStateM.pure, later, List.mapM_cons, taken, Option.bind]
            cases rest.mapM (namedInsert recordSize) <;> rfl
      · have refused : namedInsert recordSize (key, bytes) = none := by
          simp only [namedInsert, sized, ↓reduceIte]
        simp only [insertKeys, sized, ne_eq, not_false_eq_true, ↓reduceIte,
          List.mapM_cons, refused]
        rfl

theorem mem_mapM
    {Source Target : Type}
    {image : Source → Option Target}
    {sources : List Source}
    {targets : List Target}
    (mapped : sources.mapM image = some targets)
    {target : Target}
    (member : target ∈ targets) :
    ∃ source ∈ sources, image source = some target := by
  induction sources generalizing targets with
  | nil =>
      cases mapped
      cases member
  | cons first rest inductionHypothesis =>
      rw [List.mapM_cons] at mapped
      cases here : image first with
      | none =>
          rw [here] at mapped
          cases mapped
      | some head =>
          cases later : rest.mapM image with
          | none =>
              rw [here, later] at mapped
              cases mapped
          | some tail =>
              rw [here, later] at mapped
              cases mapped
              rcases List.mem_cons.mp member with same | inTail
              · exact ⟨first, List.mem_cons_self, same ▸ here⟩
              · rcases inductionHypothesis later inTail with
                  ⟨source, listed, found⟩
                exact ⟨source, List.mem_cons_of_mem _ listed, found⟩

/-- Every height a key of the list names is below the last `u32`. -/
def BoundedKeys (keys : List String) : Prop :=
  ∀ key ∈ keys, ∀ height, parseHeight key = some height → height < u32Max

section Requests

variable {recordSize : Nat} {rows : HeaderMap Bytes}
variable {inserts : List (String × Bytes)} {removed : List String}
variable {stored : List (Nat × Bytes)} {dropped : List Nat}

theorem requested_mem
    (request : requested recordSize inserts removed = some (stored, dropped))
    {height : Nat}
    {raw : Bytes}
    (member : (height, raw) ∈ stored) :
    raw.length = recordSize ∧
      ∃ key ∈ inserts.map Prod.fst, parseHeight key = some height := by
  rcases parsed : removed.mapM parseHeight with _ | heights
  · simp [requested, parsed] at request
  · rcases named : inserts.mapM (namedInsert recordSize) with _ | entries
    · simp [requested, parsed, named] at request
    · simp only [requested, parsed, named, Option.bind_eq_bind,
        Option.bind_some, Option.some.injEq, Prod.mk.injEq] at request
      rw [← request.1] at member
      rcases mem_mapM named member with ⟨row, listed, image⟩
      by_cases sized : row.2.length = recordSize
      · rw [namedInsert, if_pos sized, Option.map_eq_some_iff] at image
        rcases image with ⟨found, read, shape⟩
        cases shape
        exact ⟨sized, row.1, List.mem_map_of_mem listed, read⟩
      · rw [namedInsert, if_neg sized] at image
        cases image

theorem Sized.requested
    (sized : Sized recordSize rows)
    (request :
      requested recordSize inserts removed = some (stored, dropped)) :
    Sized recordSize ((rows.eraseAll dropped).insertAll stored) := by
  intro height raw present
  rcases BTreeMap.mem_of_getElem?_insertAll present with added | kept
  · exact (requested_mem request added).1
  · rw [BTreeMap.getElem?_eraseAll] at kept
    split at kept
    · cases kept
    · exact sized height raw kept

theorem Bounded.requested
    (bounded : Bounded rows)
    (keys : BoundedKeys (inserts.map Prod.fst))
    (request :
      requested recordSize inserts removed = some (stored, dropped)) :
    Bounded ((rows.eraseAll dropped).insertAll stored) := by
  intro height member
  obtain ⟨raw, present⟩ := BTreeMap.mem_iff_getElem?.mp member
  rcases BTreeMap.mem_of_getElem?_insertAll present with added | kept
  · rcases (requested_mem request added).2 with ⟨key, listed, named⟩
    exact keys key listed height named
  · rw [BTreeMap.getElem?_eraseAll] at kept
    split at kept
    · cases kept
    · exact bounded height (BTreeMap.mem_iff_getElem?.mpr ⟨raw, kept⟩)

theorem rewriteBatch_eq
    (positive : 0 < recordSize)
    {file : Option Bytes}
    (encodes : Encodes recordSize file rows) :
    rewriteBatch recordSize inserts removed file =
      match written recordSize rows inserts removed with
      | some after => .ok () (some (rendered after))
      | none => .error (.error .io) file := by
  simp only [rewriteBatch, bind, EStateM.bind, loadMap_eq positive encodes,
    removeKeys_eq, written]
  rcases parsed : removed.mapM parseHeight with _ | heights
  · simp only [requested, parsed, Option.bind_eq_bind, Option.bind_none]
  · simp only [insertKeys_eq]
    rcases named : inserts.mapM (namedInsert recordSize) with _ | entries
    · simp only [requested, parsed, named, Option.bind_eq_bind,
        Option.bind_some, Option.bind_none]
    · have request :
          requested recordSize inserts removed = some (entries, heights) := by
        simp only [requested, parsed, named, Option.bind_eq_bind,
          Option.bind_some]
      classical
      simp only [request, writeMap_eq (encodes.sized.requested request)]
      split <;> rfl

/-- What the abstract model writes is encoded by the file it is written to. -/
theorem encodes_written
    {file : Option Bytes}
    (encodes : Encodes recordSize file rows)
    (keys : BoundedKeys (inserts.map Prod.fst))
    {after : HeaderMap Bytes}
    (writes : written recordSize rows inserts removed = some after) :
    Encodes recordSize (some (rendered after)) after := by
  unfold written at writes
  split at writes
  · cases writes
  · rename_i stored dropped request
    dsimp only at writes
    split at writes
    · rename_i contiguous
      cases writes
      exact encodes_rendered (encodes.sized.requested request)
        (encodes.bounded.requested keys request) contiguous
    · cases writes

end Requests

section InPlace

variable {recordSize low height : Nat} {rows : HeaderMap Bytes}
variable {records : List Bytes} {bytes : Bytes}

theorem writeInPlace_inside
    (uniform : Uniform recordSize records)
    (bounded : low + records.length ≤ u32Max)
    (sized : bytes.length = recordSize)
    (above : low ≤ height)
    (inside : height < low + records.length) :
    writeInPlace recordSize low (low + records.length - 1) height bytes
        (some (fileOf low records)) =
      .ok () (some (fileOf low (records.set (height - low) bytes))) := by
  have replaced :
      overwrite (fileOf low records)
          (cachePrefixLen + (height - low) * recordSize) bytes =
        fileOf low (records.set (height - low) bytes) := by
    rw [fileOf, ← length_prefix low, overwrite_append,
      uniform.overwrite_flatten (by omega) sized, fileOf]
  have counted :
      ∀ file, addHeights (height - low) 1 file =
        .ok (height - low + 1) file := by
    intro file
    rw [addHeights, if_pos (by omega)]
    rfl
  have inPlace :
      ¬height = saturatingSucc (low + records.length - 1) := by
    rw [saturatingSucc]
    omega
  simp only [writeInPlace, bind, EStateM.bind, modify, modifyGet,
    MonadStateOf.modifyGet, EStateM.modifyGet, Option.map_some, replaced,
    counted, resize, inPlace, decide_false, Bool.false_eq_true, ↓reduceIte]
  rfl

theorem writeInPlace_end
    (uniform : Uniform recordSize records)
    (bounded : low + records.length < u32Max)
    (nonempty : records ≠ [])
    (sized : bytes.length = recordSize) :
    writeInPlace recordSize low (low + records.length - 1)
        (low + records.length) bytes (some (fileOf low records)) =
      .ok () (some (fileOf low (records ++ [bytes]))) := by
  have positive := List.length_pos_iff.mpr nonempty
  have appended :
      overwrite (fileOf low records)
          (cachePrefixLen + records.length * recordSize) bytes =
        fileOf low (records ++ [bytes]) := by
    rw [fileOf, ← length_prefix low, overwrite_append,
      uniform.overwrite_flatten_end, fileOf]
  have longer : Uniform recordSize (records ++ [bytes]) := by
    intro record member
    rcases List.mem_append.mp member with old | new
    · exact uniform record old
    · rw [List.mem_singleton.mp new]
      exact sized
  have length :
      (fileOf low (records ++ [bytes])).length =
        cachePrefixLen + (records.length + 1) * recordSize := by
    rw [fileOf, List.length_append, length_prefix, longer.length_flatten,
      List.length_append, List.length_singleton]
  have kept :
      setLen (cachePrefixLen + (records.length + 1) * recordSize)
          (fileOf low (records ++ [bytes])) =
        fileOf low (records ++ [bytes]) := by
    rw [← length, setLen, List.take_length, Nat.sub_self,
      List.replicate_zero, List.append_nil]
  have counted :
      ∀ file, addHeights records.length 1 file =
        .ok (records.length + 1) file := by
    intro file
    rw [addHeights, if_pos (by omega)]
    rfl
  have atEnd :
      low + records.length =
        saturatingSucc (low + records.length - 1) := by
    rw [saturatingSucc]
    omega
  simp only [writeInPlace, bind, EStateM.bind, modify, modifyGet,
    MonadStateOf.modifyGet, EStateM.modifyGet, Option.map_some,
    Nat.add_sub_cancel_left, appended, counted, resize, ← atEnd,
    decide_true, ↓reduceIte, kept]

/--
The positional path and the path that loads, changes and writes back leave the
same bytes and report the same outcome.
-/
theorem putRowPositional_eq
    (positive : 0 < recordSize)
    {file : Option Bytes}
    (encodes : Encodes recordSize file rows)
    {key : String}
    (keys : BoundedKeys [key]) :
    putRowPositional recordSize key bytes file =
      rewriteBatch recordSize [(key, bytes)] [] file := by
  have loaded := loadMap_eq positive encodes
  by_cases sized : bytes.length = recordSize
  · cases named : parseHeight key with
    | none =>
        simp only [putRowPositional, rewriteBatch, sized, ne_eq,
          not_true_eq_false, ↓reduceIte, bind, EStateM.bind, parseKey, named,
          loaded, removeKeys, insertKeys, pure, EStateM.pure]
        rfl
    | some height =>
        have top : height < u32Max :=
          keys key List.mem_cons_self height named
        have rewritten :
            rewriteBatch recordSize [(key, bytes)] [] file =
              writeMap recordSize (rows.insert height bytes) file := by
          simp only [rewriteBatch, sized, ne_eq, not_true_eq_false,
            ↓reduceIte, bind, EStateM.bind, parseKey, named, loaded,
            removeKeys, insertKeys, pure, EStateM.pure]
        rw [rewritten]
        simp only [putRowPositional, sized, ne_eq, not_true_eq_false,
          ↓reduceIte, bind, EStateM.bind, parseKey, named, loaded, pure,
          EStateM.pure]
        rcases encodes with
          ⟨missing, empty⟩ | ⟨low, records, present, uniform, bounded, stacked⟩
        · subst missing empty
          rfl
        · by_cases nothing : records = []
          · have empty : rows = ∅ := by
              rw [nothing, stacked_nil] at stacked
              exact stacked
            subst empty
            rfl
          · have count := List.length_pos_iff.mpr nothing
            have covers := stacked.covers nothing
            have first := covers.firstKey?_eq (by omega)
            have last := covers.lastKey?_eq (by omega)
            simp only [first, last, Option.getD_some]
            subst present
            split
            · rfl
            · rename_i near
              rw [saturatingSucc] at near
              by_cases inside : height < low + records.length
              · rw [writeInPlace_inside uniform bounded sized (by omega)
                    inside,
                  writeMap_stacked
                    (stacked.set (by omega) inside bytes)
                    (by
                      intro record member
                      rcases List.mem_or_eq_of_mem_set member with old | new
                      · exact uniform record old
                      · rw [new]
                        exact sized)
                    (by
                      intro empty
                      rw [List.set_eq_nil_iff] at empty
                      exact nothing empty)]
              · have atEnd : height = low + records.length := by omega
                subst atEnd
                rw [writeInPlace_end uniform top nothing sized,
                  writeMap_stacked (stacked.append bytes)
                    (by
                      intro record member
                      rcases List.mem_append.mp member with old | new
                      · exact uniform record old
                      · rw [List.mem_singleton.mp new]
                        exact sized)
                    (by simp)]
  · simp only [putRowPositional, rewriteBatch, sized, ne_eq,
      not_false_eq_true, ↓reduceIte, bind, EStateM.bind, loaded, removeKeys,
      insertKeys, pure, EStateM.pure]
    rfl

end InPlace

/-- One call of the backend's interface. -/
inductive FileOp where
  | getRow (key : String)
  | getRows
  | putRow (key : String) (bytes : Bytes)
  | deleteRow (key : String)
  | flushBatch (inserts : List (String × Bytes)) (removed : List String)

/-- What a call returns. -/
inductive Reply where
  | row (found : Option Bytes)
  | rows (found : List (String × Bytes))
  | written
  | failed (reason : PersistError)
  | panicked
  deriving DecidableEq

def Reply.of {Found : Type} (reply : Found → Reply) :
    EStateM.Result FileAbort (Option Bytes) Found → Reply × Option Bytes
  | .ok found file => (reply found, file)
  | .error (.error reason) file => (.failed reason, file)
  | .error .panic file => (.panicked, file)

namespace FileOp

def perform (recordSize : Nat) (file : Option Bytes) :
    FileOp → Reply × Option Bytes
  | .getRow key => Reply.of .row (HeaderFile.getRow recordSize key file)
  | .getRows => Reply.of .rows (HeaderFile.getRows recordSize file)
  | .putRow key bytes =>
      Reply.of (fun _ => .written)
        (HeaderFile.putRow recordSize key bytes file)
  | .deleteRow key =>
      Reply.of (fun _ => .written) (HeaderFile.deleteRow recordSize key file)
  | .flushBatch inserts removed =>
      Reply.of (fun _ => .written)
        (HeaderFile.flushBatch recordSize inserts removed file)

/-- The rows a call stores. -/
def inserts : FileOp → List (String × Bytes)
  | .putRow key bytes => [(key, bytes)]
  | .flushBatch inserts _ => inserts
  | _ => []

/-- A write on the map: the new rows, or a refusal that changes nothing. -/
def accept (rows : HeaderMap Bytes) :
    Option (HeaderMap Bytes) → Reply × HeaderMap Bytes
  | some after => (.written, after)
  | none => (.failed .io, rows)

noncomputable def meaning (recordSize : Nat) (rows : HeaderMap Bytes) :
    FileOp → Reply × HeaderMap Bytes
  | .getRow key =>
      match parseHeight key with
      | some height => (.row rows[height]?, rows)
      | none => (.failed .io, rows)
  | .getRows =>
      (.rows (rows.toList.map (fun row => (toString row.1, row.2))), rows)
  | .putRow key bytes =>
      accept rows (HeaderFile.written recordSize rows [(key, bytes)] [])
  | .deleteRow key =>
      accept rows (HeaderFile.written recordSize rows [] [key])
  | .flushBatch inserts removed =>
      accept rows (HeaderFile.written recordSize rows inserts removed)

section Steps

variable {recordSize : Nat} {file : Option Bytes} {rows : HeaderMap Bytes}

/-- What it means that a call on the file is that call on the map. -/
structure Refines
    (recordSize : Nat)
    (file : Option Bytes)
    (onFile : Reply × Option Bytes)
    (onMap : Reply × HeaderMap Bytes) :
    Prop where
  reply : onFile.1 = onMap.1
  encodes : Encodes recordSize onFile.2 onMap.2
  refused : ∀ reason, onFile.1 = .failed reason → onFile.2 = file

theorem refines_batch
    (positive : 0 < recordSize)
    (encodes : Encodes recordSize file rows)
    (inserts : List (String × Bytes))
    (removed : List String)
    (bounded : BoundedKeys (inserts.map Prod.fst)) :
    Refines recordSize file
      (Reply.of (fun _ => .written)
        (rewriteBatch recordSize inserts removed file))
      (accept rows (HeaderFile.written recordSize rows inserts removed)) := by
  rw [rewriteBatch_eq positive encodes]
  cases writes : HeaderFile.written recordSize rows inserts removed with
  | none =>
      exact ⟨rfl, encodes, fun _ _ => rfl⟩
  | some after =>
      exact ⟨rfl, encodes_written encodes bounded writes,
        fun reason failed => by cases failed⟩

theorem perform_refines
    (positive : 0 < recordSize)
    (encodes : Encodes recordSize file rows)
    (call : FileOp)
    (bounded : BoundedKeys (call.inserts.map Prod.fst)) :
    Refines recordSize file (call.perform recordSize file)
      (call.meaning recordSize rows) := by
  have loaded := loadMap_eq positive encodes
  cases call with
  | getRow key =>
      simp only [perform, HeaderFile.getRow, bind, EStateM.bind, parseKey,
        meaning]
      cases parseHeight key with
      | none =>
          exact ⟨rfl, encodes, fun _ _ => rfl⟩
      | some height =>
          simp only [pure, EStateM.pure, loaded]
          exact ⟨rfl, encodes, fun _ _ => rfl⟩
  | getRows =>
      simp only [perform, HeaderFile.getRows, bind, EStateM.bind, loaded,
        meaning]
      exact ⟨rfl, encodes, fun _ _ => rfl⟩
  | putRow key bytes =>
      simp only [perform, HeaderFile.putRow, meaning,
        putRowPositional_eq positive encodes bounded]
      exact refines_batch positive encodes [(key, bytes)] [] bounded
  | deleteRow key =>
      have same :
          HeaderFile.deleteRow recordSize key file =
            rewriteBatch recordSize [] [key] file := by
        simp only [HeaderFile.deleteRow, rewriteBatch, bind, EStateM.bind,
          loaded, removeKeys, parseKey]
        cases parseHeight key with
        | none =>
            rfl
        | some height =>
            simp only [pure, EStateM.pure, loaded]
            rfl
      simp only [perform, same, meaning]
      exact refines_batch positive encodes [] [key] bounded
  | flushBatch inserts removed =>
      have same :
          HeaderFile.flushBatch recordSize inserts removed file =
            rewriteBatch recordSize inserts removed file := by
        unfold HeaderFile.flushBatch
        split
        · exact putRowPositional_eq positive encodes bounded
        · rfl
      simp only [perform, same, meaning]
      exact refines_batch positive encodes inserts removed bounded

def run (recordSize : Nat) (calls : List FileOp) (file : Option Bytes) :
    Option Bytes :=
  calls.foldl (fun file call => (call.perform recordSize file).2) file

noncomputable def runMap
    (recordSize : Nat)
    (calls : List FileOp)
    (rows : HeaderMap Bytes) :
    HeaderMap Bytes :=
  calls.foldl (fun rows call => (call.meaning recordSize rows).2) rows

theorem run_encodes
    (positive : 0 < recordSize)
    (encodes : Encodes recordSize file rows)
    (calls : List FileOp)
    (bounded :
      ∀ call ∈ calls, BoundedKeys (call.inserts.map Prod.fst)) :
    Encodes recordSize (run recordSize calls file)
      (runMap recordSize calls rows) := by
  induction calls generalizing file rows with
  | nil =>
      exact encodes
  | cons call rest inductionHypothesis =>
      have step :=
        perform_refines positive encodes call
          (bounded call List.mem_cons_self)
      exact inductionHypothesis step.encodes
        (fun later member => bounded later (List.mem_cons_of_mem _ member))

/--
After any sequence of calls on a well-formed file the next call answers and
changes the file as the same call on the map does, a refused call changes
nothing, and one row is written to the same bytes in place or by a rewrite.
-/
theorem file_refines_map
    (positive : 0 < recordSize)
    (encodes : Encodes recordSize file rows)
    (calls : List FileOp)
    (bounded :
      ∀ call ∈ calls, BoundedKeys (call.inserts.map Prod.fst))
    (next : FileOp)
    (nextBounded : BoundedKeys (next.inserts.map Prod.fst)) :
    Refines recordSize (run recordSize calls file)
      (next.perform recordSize (run recordSize calls file))
      (next.meaning recordSize (runMap recordSize calls rows)) ∧
    ∀ key bytes, BoundedKeys [key] →
      putRowPositional recordSize key bytes (run recordSize calls file) =
        rewriteBatch recordSize [(key, bytes)] []
          (run recordSize calls file) := by
  have reached := run_encodes positive encodes calls bounded
  constructor
  · exact perform_refines positive reached next nextBounded
  · intro key bytes keys
    exact putRowPositional_eq positive reached keys

/-- Three rows written to a file that was not there. -/
def sampleCalls : List FileOp :=
  [.putRow "7" [1], .putRow "8" [2], .putRow "9" [3]]

/-- Dropping the middle one of three rows is refused. -/
theorem file_refines_map_gap :
    Refines 1 (run 1 sampleCalls none)
      ((FileOp.deleteRow "8").perform 1 (run 1 sampleCalls none))
      ((FileOp.deleteRow "8").meaning 1 (runMap 1 sampleCalls ∅)) := by
  have named :
      ∀ key ∈ ["7", "8", "9"], ∀ height,
        parseHeight key = some height → height < u32Max := by
    decide +kernel
  have small :
      ∀ call ∈ sampleCalls, BoundedKeys (call.inserts.map Prod.fst) := by
    intro call member key listed
    apply named key
    simp only [sampleCalls, List.mem_cons, List.not_mem_nil,
      or_false] at member
    rcases member with same | same | same <;>
      (subst same; simp only [inserts, List.map_cons, List.map_nil,
        List.mem_singleton] at listed; simp [listed])
  exact (file_refines_map (by decide) (Or.inl ⟨rfl, rfl⟩) _ small
    (.deleteRow "8") (by
      intro key listed
      cases listed)).1

end Steps

end FileOp

end HeaderFile

end Bwk
