import Bwk.OrderedMap

namespace Bwk

/-!
# Records of one size, and maps over an interval of keys

A file of fixed-size records is the concatenation of its records, and the map
such a file stands for has one record at each key from a lowest one on.  This
module relates the three views: the items of the file, the list of records and
the map.  Nothing here knows what a record holds.
-/

namespace FixedRecords

section Layout

variable {Item : Type} {size : Nat} {records : List (List Item)}

def Uniform (size : Nat) (records : List (List Item)) : Prop :=
  ∀ record ∈ records, record.length = size

/-- Cut `count` records of one size off a list of items. -/
def chunksExact (size : Nat) : Nat → List Item → List (List Item)
  | 0, _ => []
  | count + 1, items =>
      items.take size :: chunksExact size count (items.drop size)

/-- Replace the items from `offset` on, without moving what lies behind. -/
def overwrite
    (items : List Item)
    (offset : Nat)
    (written : List Item) :
    List Item :=
  items.take offset ++ written ++ items.drop (offset + written.length)

theorem Uniform.length_flatten (uniform : Uniform size records) :
    records.flatten.length = records.length * size := by
  induction records with
  | nil =>
      simp
  | cons record rest inductionHypothesis =>
      have later := inductionHypothesis
        (fun other member => uniform other (List.mem_cons_of_mem _ member))
      rw [List.flatten_cons, List.length_append, later,
        uniform record List.mem_cons_self, List.length_cons, Nat.succ_mul,
        Nat.add_comm]

theorem Uniform.chunksExact_flatten (uniform : Uniform size records) :
    chunksExact size records.length records.flatten = records := by
  induction records with
  | nil =>
      rfl
  | cons record rest inductionHypothesis =>
      have here := uniform record List.mem_cons_self
      have later := inductionHypothesis
        (fun other member => uniform other (List.mem_cons_of_mem _ member))
      rw [List.length_cons, List.flatten_cons, chunksExact,
        List.take_left' here, List.drop_left' here, later]

theorem uniform_chunksExact
    {count : Nat}
    {items : List Item}
    (enough : count * size ≤ items.length) :
    Uniform size (chunksExact size count items) := by
  induction count generalizing items with
  | zero =>
      intro record member
      cases member
  | succ count inductionHypothesis =>
      rw [Nat.succ_mul] at enough
      intro record member
      rcases List.mem_cons.mp member with here | later
      · rw [here, List.length_take]
        omega
      · refine inductionHypothesis ?_ record later
        rw [List.length_drop]
        omega

@[simp] theorem length_chunksExact (count : Nat) (items : List Item) :
    (chunksExact size count items).length = count := by
  induction count generalizing items with
  | zero =>
      rfl
  | succ count inductionHypothesis =>
      rw [chunksExact, List.length_cons, inductionHypothesis]

theorem Uniform.take_flatten
    (uniform : Uniform size records)
    (index : Nat) :
    records.flatten.take (index * size) = (records.take index).flatten := by
  induction records generalizing index with
  | nil =>
      simp
  | cons record rest inductionHypothesis =>
      have here := uniform record List.mem_cons_self
      cases index with
      | zero =>
          simp
      | succ index =>
          have later := inductionHypothesis
            (fun other member =>
              uniform other (List.mem_cons_of_mem _ member)) index
          rw [List.flatten_cons, List.take_succ_cons, List.flatten_cons,
            Nat.succ_mul, Nat.add_comm, ← here, List.take_length_add_append,
            here, later]

theorem Uniform.drop_flatten
    (uniform : Uniform size records)
    (index : Nat) :
    records.flatten.drop (index * size) = (records.drop index).flatten := by
  have whole :
      (records.take index).flatten ++ records.flatten.drop (index * size) =
        (records.take index).flatten ++ (records.drop index).flatten := by
    rw [← uniform.take_flatten, List.take_append_drop, uniform.take_flatten,
      ← List.flatten_append, List.take_append_drop]
  exact List.append_cancel_left whole

theorem Uniform.overwrite_flatten
    (uniform : Uniform size records)
    {index : Nat}
    (inside : index < records.length)
    {written : List Item}
    (sized : written.length = size) :
    overwrite records.flatten (index * size) written =
      (records.set index written).flatten := by
  have behind : index * size + written.length = (index + 1) * size := by
    rw [sized, Nat.succ_mul]
  rw [overwrite, behind, uniform.take_flatten, uniform.drop_flatten,
    List.set_eq_take_append_cons_drop, if_pos inside, List.flatten_append,
    List.flatten_cons, List.append_assoc]

theorem Uniform.overwrite_flatten_end
    (uniform : Uniform size records)
    (written : List Item) :
    overwrite records.flatten (records.length * size) written =
      (records ++ [written]).flatten := by
  rw [← uniform.length_flatten, overwrite, List.take_length,
    List.drop_eq_nil_of_le (Nat.le_add_right _ _), List.flatten_append,
    List.append_nil, List.flatten_singleton]

theorem overwrite_append
    (front items : List Item)
    (offset : Nat)
    (written : List Item) :
    overwrite (front ++ items) (front.length + offset) written =
      front ++ overwrite items offset written := by
  rw [overwrite, overwrite, Nat.add_assoc, List.take_length_add_append,
    List.drop_length_add_append, List.append_assoc, List.append_assoc,
    List.append_assoc]

end Layout

section Stacked

variable {Value : Type} {map : BTreeMap Nat Value} {low : Nat}
variable {values : List Value}

/-- The map holds the listed values at the keys from `low` on. -/
def Stacked
    (map : BTreeMap Nat Value)
    (low : Nat)
    (values : List Value) :
    Prop :=
  ∀ key, map[key]? = if low ≤ key then values[key - low]? else none

theorem stacked_nil : Stacked map low [] ↔ map = ∅ := by
  constructor
  · intro stacked
    apply Std.ExtTreeMap.ext_getElem?
    intro key
    rw [stacked key]
    simp
  · intro empty key
    simp [empty]

theorem Stacked.covers
    (stacked : Stacked map low values)
    (nonempty : values ≠ []) :
    map.Covers low (low + values.length - 1) := by
  have positive := List.length_pos_iff.mpr nonempty
  intro key
  rw [BTreeMap.mem_iff_getElem?, stacked key]
  constructor
  · rintro ⟨value, present⟩
    split at present
    · have inside := (List.getElem?_eq_some_iff.mp present).1
      omega
    · cases present
  · intro within
    have inside : key - low < values.length := by omega
    rw [if_pos within.1, List.getElem?_eq_getElem inside]
    exact ⟨_, rfl⟩

theorem stacked_of_covers
    {high : Nat}
    (covers : map.Covers low high)
    (ordered : low ≤ high) :
    Stacked map low (map.toList.map Prod.snd) := by
  have keys : map.toList.map Prod.fst = List.range' low (high + 1 - low) := by
    rw [Std.ExtTreeMap.map_fst_toList_eq_keys, covers.keys_eq ordered]
  have count : map.toList.length = high + 1 - low := by
    rw [← List.length_map, keys, List.length_range']
  intro key
  by_cases within : low ≤ key ∧ key ≤ high
  · have inside : key - low < map.toList.length := by omega
    have keyAt : (map.toList[key - low]).1 = key := by
      have read := congrArg (fun list => list[key - low]?) keys
      simp only [List.getElem?_map, List.getElem?_eq_getElem inside,
        Option.map_some] at read
      rw [List.getElem?_range' (by omega)] at read
      injection read with same
      omega
    have present :
        map[(map.toList[key - low]).1]? =
          some (map.toList[key - low]).2 :=
      Std.ExtTreeMap.mem_toList_iff_getElem?_eq_some.mp
        (List.getElem_mem inside)
    rw [keyAt] at present
    rw [present, if_pos within.1, List.getElem?_map,
      List.getElem?_eq_getElem inside, Option.map_some]
  · have absent : map[key]? = none :=
      BTreeMap.not_mem_iff_getElem?.mp (fun member =>
        within ((covers key).mp member))
    rw [absent]
    split
    · symm
      rw [List.getElem?_eq_none]
      rw [List.length_map, count]
      omega
    · rfl

theorem Stacked.unique
    {otherLow : Nat}
    {others : List Value}
    (stacked : Stacked map low values)
    (otherwise : Stacked map otherLow others)
    (nonempty : values ≠ []) :
    otherLow = low ∧ others = values := by
  have covers := stacked.covers nonempty
  have positive := List.length_pos_iff.mpr nonempty
  have othersNonempty : others ≠ [] := by
    intro nothing
    rw [nothing, stacked_nil] at otherwise
    exact covers.ne_empty (by omega) otherwise
  have otherCovers := otherwise.covers othersNonempty
  have otherPositive := List.length_pos_iff.mpr othersNonempty
  have sameLow : otherLow = low := by
    have first := covers.firstKey?_eq (by omega)
    rw [otherCovers.firstKey?_eq (by omega)] at first
    injection first
  refine ⟨sameLow, ?_⟩
  apply List.ext_getElem?
  intro index
  have here := otherwise (low + index)
  rw [stacked (low + index), sameLow, if_pos (Nat.le_add_right _ _),
    if_pos (Nat.le_add_right _ _), Nat.add_sub_cancel_left] at here
  exact here.symm

theorem Stacked.values_eq (stacked : Stacked map low values) :
    map.toList.map Prod.snd = values := by
  by_cases nothing : values = []
  · rw [nothing, stacked_nil] at stacked
    simp [stacked, nothing]
  · have positive := List.length_pos_iff.mpr nothing
    have again :=
      stacked_of_covers (stacked.covers nothing) (by omega)
    exact (stacked.unique again nothing).2

theorem Stacked.set
    (stacked : Stacked map low values)
    {key : Nat}
    (above : low ≤ key)
    (inside : key < low + values.length)
    (value : Value) :
    Stacked (map.insert key value) low (values.set (key - low) value) := by
  intro query
  rw [BTreeMap.getElem?_insert_eq, stacked query]
  by_cases same : key = query
  · subst same
    rw [if_pos rfl, if_pos above, List.getElem?_set_self (by omega)]
  · rw [if_neg same]
    split
    · rw [List.getElem?_set_ne (by omega)]
    · rfl

theorem Stacked.append
    (stacked : Stacked map low values)
    (value : Value) :
    Stacked (map.insert (low + values.length) value) low
      (values ++ [value]) := by
  intro query
  rw [BTreeMap.getElem?_insert_eq, stacked query]
  by_cases same : low + values.length = query
  · subst same
    rw [if_pos rfl, if_pos (Nat.le_add_right _ _), Nat.add_sub_cancel_left,
      List.getElem?_concat_length]
  · rw [if_neg same]
    split
    · rw [List.getElem?_append]
      split
      · rfl
      · rw [List.getElem?_eq_none (by omega),
          List.getElem?_eq_none (by simp only [List.length_singleton]; omega)]
    · rfl

end Stacked

end FixedRecords

end Bwk
