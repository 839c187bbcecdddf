import Bwk.OrderedMap

namespace Bwk.BTreeMap

/-!
# Moving entries between ordered maps

Entries that are taken out of one map and kept in another can be put back.
`Splits` says that two maps hold one map between them; removing an entry from
the first and storing it in the second keeps it, and appending the second to
the first gives the whole map again.
-/

section Moves

variable {Key Value : Type} [Ord Key] [Std.TransOrd Key]

/-- Store every entry of another map, its entries winning. -/
def append (map other : BTreeMap Key Value) : BTreeMap Key Value :=
  insertAll map other.toList

/-- Move one entry from the first map to the second, if it is there. -/
def moveKey
    (maps : BTreeMap Key Value × BTreeMap Key Value)
    (key : Key) :
    BTreeMap Key Value × BTreeMap Key Value :=
  match maps.1[key]? with
  | some value => (maps.1.erase key, maps.2.insert key value)
  | none => maps

/-- Move the listed entries from the first map to the second. -/
def moveKeys
    (maps : BTreeMap Key Value × BTreeMap Key Value)
    (keys : List Key) :
    BTreeMap Key Value × BTreeMap Key Value :=
  keys.foldl moveKey maps

/-- Every entry of a map is in exactly one of two maps, and they hold nothing
else. -/
def Splits (whole kept aside : BTreeMap Key Value) : Prop :=
  ∀ key : Key,
    (kept[key]? = whole[key]? ∧ aside[key]? = none) ∨
      (kept[key]? = none ∧ aside[key]? = whole[key]?)

theorem splits_self (whole : BTreeMap Key Value) :
    Splits whole whole ∅ := by
  intro key
  left
  simp

variable [Std.LawfulEqOrd Key] [DecidableEq Key]

@[simp] theorem getElem?_append
    (map other : BTreeMap Key Value)
    (key : Key) :
    (append map other)[key]? = (other[key]?).or map[key]? := by
  have taken :
      ∀ entry ∈ other.toList, other[entry.1]? = some entry.2 :=
    fun entry member =>
      Std.ExtTreeMap.mem_toList_iff_getElem?_eq_some.mp member
  have listed : key ∈ other.toList.map Prod.fst ↔ key ∈ other := by
    rw [Std.ExtTreeMap.map_fst_toList_eq_keys, Std.ExtTreeMap.mem_keys]
  rw [append, getElem?_insertAll_of_source _ taken]
  cases present : other[key]? with
  | none =>
      rw [if_neg (fun inList =>
        not_mem_iff_getElem?.mpr present (listed.mp inList))]
      rfl
  | some value =>
      rw [if_pos (listed.mpr (mem_iff_getElem?.mpr ⟨value, present⟩))]
      rfl

variable (maps : BTreeMap Key Value × BTreeMap Key Value)
variable {map : BTreeMap Key Value} (keys : List Key)

theorem getElem?_moveKey_fst
    (key query : Key) :
    (moveKey maps key).1[query]? =
      if key = query then none else maps.1[query]? := by
  cases present : maps.1[key]? with
  | none =>
      simp only [moveKey, present]
      by_cases same : key = query
      · rw [if_pos same, ← same, present]
      · rw [if_neg same]
  | some value =>
      simp only [moveKey, present, getElem?_erase_eq]

theorem getElem?_moveKeys_fst
    (query : Key) :
    (moveKeys maps keys).1[query]? =
      if query ∈ keys then none else maps.1[query]? := by
  induction keys generalizing maps with
  | nil =>
      simp [moveKeys]
  | cons key rest inductionHypothesis =>
      have unfolded :
          moveKeys maps (key :: rest) = moveKeys (moveKey maps key) rest :=
        rfl
      rw [unfolded, inductionHypothesis, getElem?_moveKey_fst]
      by_cases later : query ∈ rest
      · simp [later]
      · by_cases same : key = query
        · simp [same]
        · simp [later, same, Ne.symm same]

theorem fst_moveKeys :
    (moveKeys maps keys).1 = eraseAll maps.1 keys := by
  apply Std.ExtTreeMap.ext_getElem?
  intro query
  rw [getElem?_moveKeys_fst, getElem?_eraseAll]

@[simp] theorem mem_eraseAll
    {keys : List Key}
    {key : Key} :
    key ∈ eraseAll map keys ↔ key ∉ keys ∧ key ∈ map := by
  rw [mem_iff_getElem?, mem_iff_getElem?, getElem?_eraseAll]
  by_cases dropped : key ∈ keys
  · simp [dropped]
  · simp [dropped]

theorem eraseAll_eq_self_iff
    {keys : List Key} :
    eraseAll map keys = map ↔ ∀ key ∈ keys, key ∉ map := by
  constructor
  · intro same key dropped held
    rw [← same, mem_eraseAll] at held
    exact held.1 dropped
  · intro absent
    apply Std.ExtTreeMap.ext_getElem?
    intro query
    rw [getElem?_eraseAll]
    by_cases dropped : query ∈ keys
    · rw [if_pos dropped, not_mem_iff_getElem?.mp (absent query dropped)]
    · rw [if_neg dropped]

theorem Splits.moveKey
    {whole : BTreeMap Key Value}
    {maps : BTreeMap Key Value × BTreeMap Key Value}
    (splits : Splits whole maps.1 maps.2)
    (key : Key) :
    Splits whole (moveKey maps key).1 (moveKey maps key).2 := by
  cases present : maps.1[key]? with
  | none =>
      simpa only [BTreeMap.moveKey, present] using splits
  | some value =>
      simp only [BTreeMap.moveKey, present]
      intro query
      rw [getElem?_erase_eq, getElem?_insert_eq]
      by_cases same : key = query
      · right
        rw [if_pos same, if_pos same]
        subst same
        obtain ⟨held, -⟩ | ⟨gone, -⟩ := splits key
        · exact ⟨rfl, present.symm.trans held⟩
        · rw [present] at gone
          cases gone
      · rw [if_neg same, if_neg same]
        exact splits query

theorem Splits.moveKeys
    {whole : BTreeMap Key Value}
    {maps : BTreeMap Key Value × BTreeMap Key Value}
    (splits : Splits whole maps.1 maps.2)
    (keys : List Key) :
    Splits whole (moveKeys maps keys).1 (moveKeys maps keys).2 := by
  induction keys generalizing maps with
  | nil =>
      exact splits
  | cons key rest inductionHypothesis =>
      exact inductionHypothesis (splits.moveKey key)

theorem Splits.append_eq
    {whole kept aside : BTreeMap Key Value}
    (splits : Splits whole kept aside) :
    append kept aside = whole := by
  apply Std.ExtTreeMap.ext_getElem?
  intro key
  rw [getElem?_append]
  obtain ⟨held, absent⟩ | ⟨gone, moved⟩ := splits key
  · rw [absent, held, Option.none_or]
  · rw [gone, moved, Option.or_none]

end Moves

end Bwk.BTreeMap
