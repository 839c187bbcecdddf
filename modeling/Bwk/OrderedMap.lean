import Mathlib

namespace Bwk

/-!
# Ordered maps and the intervals of heights they cover

The stores modelled in this development are ordered maps.  The standard
library's extensional tree maps already have the lookup lemmas, so this module
only adds what iteration in key order needs: the first and last key, the
restriction of a map to a predicate, and the theory of maps whose keys are
exactly one interval of natural numbers.
-/

/-- An ordered map whose equality is equality of lookups. -/
abbrev BTreeMap (Key Value : Type) [Ord Key] :=
  Std.ExtTreeMap Key Value

namespace BTreeMap

section General

variable {Key Value : Type} [Ord Key] [Std.TransOrd Key]

/-- The first key an in-order iteration meets. -/
def firstKey? (map : BTreeMap Key Value) : Option Key :=
  map.keys.head?

/-- The last key an in-order iteration meets. -/
def lastKey? (map : BTreeMap Key Value) : Option Key :=
  map.keys.getLast?

/-- Keep the entries accepted by a predicate. -/
def retain
    (keep : Key → Value → Bool)
    (map : BTreeMap Key Value) :
    BTreeMap Key Value :=
  map.filter keep

@[simp] theorem getElem?_insert_eq
    [Std.LawfulEqOrd Key] [DecidableEq Key]
    (map : BTreeMap Key Value)
    (key query : Key)
    (value : Value) :
    (Std.ExtTreeMap.insert map key value)[query]? =
      if key = query then some value else map[query]? := by
  simp [Std.ExtTreeMap.getElem?_insert]

@[simp] theorem getElem?_erase_eq
    [Std.LawfulEqOrd Key] [DecidableEq Key]
    (map : BTreeMap Key Value)
    (key query : Key) :
    (Std.ExtTreeMap.erase map key)[query]? =
      if key = query then none else map[query]? := by
  simp [Std.ExtTreeMap.getElem?_erase]

@[simp] theorem getElem?_retain
    [Std.LawfulEqOrd Key]
    (keep : Key → Value → Bool)
    (map : BTreeMap Key Value)
    (query : Key) :
    (retain keep map)[query]? =
      (map[query]?).filter (keep query) := by
  cases present : map[query]? with
  | none =>
      simp [retain, Std.ExtTreeMap.getElem?_filter, present]
  | some value =>
      have sameKey :
          map.getKey? query = some query := by
        have member : query ∈ map := by
          simp [Std.ExtTreeMap.mem_iff_isSome_getElem?, present]
        simpa using Std.ExtTreeMap.getKey?_eq_some member
      rw [retain, Std.ExtTreeMap.getElem?_filter_of_getKey?_eq_some sameKey,
        present]

def eraseAll (map : BTreeMap Key Value) (keys : List Key) :
    BTreeMap Key Value :=
  keys.foldl Std.ExtTreeMap.erase map

/-- Store every listed entry, later ones winning. -/
def insertAll (map : BTreeMap Key Value) (entries : List (Key × Value)) :
    BTreeMap Key Value :=
  entries.foldl (fun stored entry => stored.insert entry.1 entry.2) map

@[simp] theorem getElem?_eraseAll
    [Std.LawfulEqOrd Key] [DecidableEq Key]
    (map : BTreeMap Key Value)
    (keys : List Key)
    (query : Key) :
    (eraseAll map keys)[query]? =
      if query ∈ keys then none else map[query]? := by
  induction keys generalizing map with
  | nil =>
      simp [eraseAll]
  | cons key rest inductionHypothesis =>
      have unfolded :
          eraseAll map (key :: rest) = eraseAll (map.erase key) rest := rfl
      rw [unfolded, inductionHypothesis, getElem?_erase_eq]
      by_cases inRest : query ∈ rest
      · simp [inRest]
      · by_cases same : key = query
        · simp [same]
        · simp [inRest, same, Ne.symm same]

variable {entries : List (Key × Value)}

/--
Lookup after storing a list of entries all taken from one source: a listed key
reads what the source holds.
-/
theorem getElem?_insertAll_of_source
    [Std.LawfulEqOrd Key] [DecidableEq Key]
    (map : BTreeMap Key Value)
    {source : Key → Option Value}
    (taken : ∀ entry ∈ entries, source entry.1 = some entry.2)
    (query : Key) :
    (insertAll map entries)[query]? =
      if query ∈ entries.map Prod.fst then source query else map[query]? := by
  induction entries generalizing map with
  | nil =>
      simp [insertAll]
  | cons entry rest inductionHypothesis =>
      have unfolded :
          insertAll map (entry :: rest) =
            insertAll (map.insert entry.1 entry.2) rest := rfl
      have here := taken entry (by simp)
      rw [unfolded,
        inductionHypothesis _ (fun later member =>
          taken later (by simp [member])),
        getElem?_insert_eq]
      by_cases inRest : query ∈ rest.map Prod.fst
      · rw [if_pos inRest, if_pos (by simp at inRest ⊢; exact .inr inRest)]
      · rw [if_neg inRest]
        by_cases same : entry.1 = query
        · rw [if_pos same, if_pos (by simp [same]), ← same, here]
        · rw [if_neg same, if_neg]
          simp only [List.map_cons, List.mem_cons, not_or]
          exact ⟨Ne.symm same, inRest⟩

theorem getElem?_insertAll_of_nodup
    [Std.LawfulEqOrd Key] [DecidableEq Key]
    (map : BTreeMap Key Value)
    (distinct : (entries.map Prod.fst).Nodup)
    (query : Key)
    (value : Value) :
    (insertAll map entries)[query]? = some value ↔
      (query, value) ∈ entries ∨
        (query ∉ entries.map Prod.fst ∧ map[query]? = some value) := by
  induction entries generalizing map with
  | nil =>
      simp [insertAll]
  | cons entry rest inductionHypothesis =>
      have unfolded :
          insertAll map (entry :: rest) =
            insertAll (map.insert entry.1 entry.2) rest := rfl
      rw [List.map_cons, List.nodup_cons] at distinct
      rw [unfolded, inductionHypothesis _ distinct.2, getElem?_insert_eq]
      by_cases same : entry.1 = query
      · subst same
        have fresh : ∀ other, (entry.1, other) ∉ rest := by
          intro other member
          exact distinct.1 (List.mem_map.mpr ⟨_, member, rfl⟩)
        simp only [fresh, ↓reduceIte, Option.some.injEq, distinct.1,
          not_false_eq_true, true_and, false_or, List.mem_cons,
          Prod.ext_iff, List.map_cons, not_true_eq_false,
          false_and, or_false]
        exact eq_comm
      · have other : (query, value) ≠ entry := by
          intro shape
          exact same (by rw [← shape])
        simp [same, other, Ne.symm same]

variable {map : BTreeMap Key Value}

theorem mem_of_getElem?_insertAll
    [Std.LawfulEqOrd Key] [DecidableEq Key]
    {query : Key}
    {value : Value}
    (found : (insertAll map entries)[query]? = some value) :
    (query, value) ∈ entries ∨ map[query]? = some value := by
  induction entries generalizing map with
  | nil =>
      exact Or.inr found
  | cons entry rest inductionHypothesis =>
      rcases inductionHypothesis found with later | stored
      · exact Or.inl (List.mem_cons_of_mem _ later)
      · rw [getElem?_insert_eq] at stored
        split at stored
        · next same =>
            cases stored
            subst same
            exact Or.inl List.mem_cons_self
        · exact Or.inr stored

theorem getElem?_insertAll_of_agree
    [Std.LawfulEqOrd Key] [DecidableEq Key]
    (agree :
      ∀ key value other,
        (key, value) ∈ entries → (key, other) ∈ entries → value = other)
    (query : Key)
    (value : Value) :
    (insertAll (∅ : BTreeMap Key Value) entries)[query]? = some value ↔
      (query, value) ∈ entries := by
  constructor
  · intro found
    rcases mem_of_getElem?_insertAll found with listed | stored
    · exact listed
    · simp at stored
  · intro listed
    let source := fun key =>
      (entries.find? (fun entry => entry.1 = key)).map Prod.snd
    have taken : ∀ entry ∈ entries, source entry.1 = some entry.2 := by
      intro entry member
      obtain ⟨first, found⟩ := Option.isSome_iff_exists.mp
        (List.find?_isSome
          (p := fun other : Key × Value => decide (other.1 = entry.1)).mpr
          ⟨entry, member, by simp⟩)
      have same : first.1 = entry.1 := by
        simpa using List.find?_some found
      have one : first.2 = entry.2 :=
        agree entry.1 first.2 entry.2
          (same ▸ List.mem_of_find?_eq_some found) member
      change (entries.find? (fun other => other.1 = entry.1)).map Prod.snd = _
      rw [found, Option.map_some, one]
    rw [getElem?_insertAll_of_source _ taken, if_pos
      (List.mem_map_of_mem (f := Prod.fst) listed)]
    exact taken _ listed

theorem mem_iff_getElem?
    {key : Key} :
    key ∈ map ↔ ∃ value, map[key]? = some value := by
  rw [Std.ExtTreeMap.mem_iff_isSome_getElem?, Option.isSome_iff_exists]

theorem not_mem_iff_getElem?
    {key : Key} :
    key ∉ map ↔ map[key]? = none := by
  rw [Std.ExtTreeMap.mem_iff_isSome_getElem?]
  simp

theorem insertAll_toList
    [Std.LawfulEqOrd Key] [DecidableEq Key]
    (map : BTreeMap Key Value) :
    insertAll ∅ map.toList = map := by
  apply Std.ExtTreeMap.ext_getElem?
  intro key
  have taken :
      ∀ entry ∈ map.toList, map[entry.1]? = some entry.2 :=
    fun entry member =>
      Std.ExtTreeMap.mem_toList_iff_getElem?_eq_some.mp member
  have listed : key ∈ map.toList.map Prod.fst ↔ key ∈ map := by
    rw [Std.ExtTreeMap.map_fst_toList_eq_keys, Std.ExtTreeMap.mem_keys]
  rw [getElem?_insertAll_of_source _ taken]
  by_cases member : key ∈ map
  · rw [if_pos (listed.mpr member)]
  · rw [if_neg (fun inList => member (listed.mp inList)),
      not_mem_iff_getElem?.mp member]
    simp

theorem firstKey?_eq_none_iff
    {map : BTreeMap Key Value} :
    firstKey? map = none ↔ map = ∅ := by
  rw [firstKey?, List.head?_eq_none_iff, Std.ExtTreeMap.keys_eq_nil_iff]

theorem lastKey?_eq_none_iff
    {map : BTreeMap Key Value} :
    lastKey? map = none ↔ map = ∅ := by
  rw [lastKey?, List.getLast?_eq_none_iff, Std.ExtTreeMap.keys_eq_nil_iff]

section Loops

variable
    {Key Item State Out : Type}
    {items : List Item}
    {key : Item → Key}
    {round : State → Item → State}
    {look : State → Key → Out}

/--
A loop whose every round touches only what is looked up under its own key
leaves what is looked up under any other.
-/
theorem look_foldl_untouched
    (other :
      ∀ state item query, item ∈ items → key item ≠ query →
        look (round state item) query = look state query)
    (state : State)
    {query : Key}
    (absent : query ∉ items.map key) :
    look (items.foldl round state) query = look state query := by
  induction items generalizing state with
  | nil =>
      rfl
  | cons item rest inductionHypothesis =>
      rw [List.map_cons, List.mem_cons, not_or] at absent
      rw [List.foldl_cons,
        inductionHypothesis
          (fun state item query member =>
            other state item query (List.mem_cons_of_mem _ member))
          _ absent.2]
      exact other state item query List.mem_cons_self (Ne.symm absent.1)

theorem look_foldl_touched
    (change : Item → Out → Out)
    (distinct : (items.map key).Nodup)
    (same :
      ∀ state item, item ∈ items →
        look (round state item) (key item) =
          change item (look state (key item)))
    (other :
      ∀ state item query, item ∈ items → key item ≠ query →
        look (round state item) query = look state query)
    (state : State)
    {item : Item}
    (member : item ∈ items) :
    look (items.foldl round state) (key item) =
      change item (look state (key item)) := by
  induction items generalizing state with
  | nil =>
      cases member
  | cons first rest inductionHypothesis =>
      rw [List.map_cons, List.nodup_cons] at distinct
      rw [List.foldl_cons]
      have otherRest :
          ∀ state item query, item ∈ rest → key item ≠ query →
            look (round state item) query = look state query :=
        fun state item query member =>
          other state item query (List.mem_cons_of_mem _ member)
      rcases List.mem_cons.mp member with rfl | later
      · rw [look_foldl_untouched otherRest _ distinct.1]
        exact same state item List.mem_cons_self
      · have elsewhere : key first ≠ key item := by
          intro equal
          exact distinct.1 (List.mem_map.mpr ⟨item, later, equal.symm⟩)
        rw [inductionHypothesis distinct.2
          (fun state item member =>
            same state item (List.mem_cons_of_mem _ member))
          otherRest _ later]
        rw [other state first (key item) List.mem_cons_self elsewhere]

end Loops

theorem nodup_toList
    (map : BTreeMap Key Value) : (map.toList.map Prod.fst).Nodup := by
  rw [Std.ExtTreeMap.map_fst_toList_eq_keys]
  exact Std.ExtTreeMap.nodup_keys

/--
A loop over the entries of a map whose every round touches only what is looked
up under its own key changes each key once, with its own entry.
-/
theorem look_foldl_toList
    [Std.LawfulEqOrd Key]
    {State Out : Type}
    (map : BTreeMap Key Value)
    (round : State → Key × Value → State)
    (look : State → Key → Out)
    (change : Key → Value → Out → Out)
    (same :
      ∀ state key value, map[key]? = some value →
        look (round state (key, value)) key =
          change key value (look state key))
    (other :
      ∀ state key value query, map[key]? = some value → key ≠ query →
        look (round state (key, value)) query = look state query)
    (state : State)
    (query : Key) :
    look (map.toList.foldl round state) query =
      match map[query]? with
      | some value => change query value (look state query)
      | none => look state query := by
  have distinct := nodup_toList map
  have stored :
      ∀ {entry : Key × Value}, entry ∈ map.toList →
        map[entry.1]? = some entry.2 :=
    fun member => Std.ExtTreeMap.mem_toList_iff_getElem?_eq_some.mp member
  have otherEntry :
      ∀ state (entry : Key × Value) query, entry ∈ map.toList →
        entry.1 ≠ query →
        look (round state entry) query = look state query :=
    fun state entry query member =>
      other state entry.1 entry.2 query (stored member)
  cases found : map[query]? with
  | some value =>
      exact look_foldl_touched (fun entry => change entry.1 entry.2) distinct
        (fun state entry member =>
          same state entry.1 entry.2 (stored member))
        otherEntry state
        (Std.ExtTreeMap.mem_toList_iff_getElem?_eq_some.mpr found)
  | none =>
      refine look_foldl_untouched otherEntry state ?_
      rw [Std.ExtTreeMap.map_fst_toList_eq_keys, Std.ExtTreeMap.mem_keys]
      exact not_mem_iff_getElem?.mpr found

end General

section Intervals

variable {Value : Type}

/-- The keys of `map` are exactly the interval from `low` to `high`. -/
def Covers (map : BTreeMap Nat Value) (low high : Nat) : Prop :=
  ∀ key, key ∈ map ↔ low ≤ key ∧ key ≤ high

theorem keys_sorted (map : BTreeMap Nat Value) :
    map.keys.Pairwise (· < ·) := by
  refine Std.ExtTreeMap.ordered_keys.imp ?_
  intro first second ordered
  exact Nat.compare_eq_lt.mp ordered

theorem firstKey?_le
    {map : BTreeMap Nat Value}
    {first key : Nat}
    (head : firstKey? map = some first)
    (member : key ∈ map) :
    first ≤ key := by
  have sorted := keys_sorted map
  have listed := Std.ExtTreeMap.mem_keys.mpr member
  unfold firstKey? at head
  cases enumerated : map.keys with
  | nil =>
      rw [enumerated] at head
      cases head
  | cons lowest above =>
      rw [enumerated] at head sorted listed
      cases head
      rcases List.mem_cons.mp listed with rfl | later
      · exact Nat.le_refl _
      · exact Nat.le_of_lt (List.rel_of_pairwise_cons sorted later)

theorem toList_insertAll_of_sorted
    {entries : List (Nat × Value)}
    (sorted : entries.Pairwise (fun first second => first.1 < second.1)) :
    (insertAll (∅ : BTreeMap Nat Value) entries).toList = entries := by
  have distinct : (entries.map Prod.fst).Nodup := by
    rw [List.Nodup, List.pairwise_map]
    exact sorted.imp (fun before => Nat.ne_of_lt before)
  have storedSorted :
      (insertAll (∅ : BTreeMap Nat Value) entries).toList.Pairwise
        (fun first second => first.1 < second.1) :=
    Std.ExtTreeMap.ordered_keys_toList.imp
      (fun ordered => Nat.compare_eq_lt.mp ordered)
  have sameMembers :
      ∀ entry,
        entry ∈ (insertAll (∅ : BTreeMap Nat Value) entries).toList ↔
          entry ∈ entries := by
    intro entry
    rw [← Prod.mk.eta (p := entry),
      Std.ExtTreeMap.mem_toList_iff_getElem?_eq_some,
      getElem?_insertAll_of_nodup _ distinct]
    simp
  have nodupOf :
      ∀ {rows : List (Nat × Value)},
        rows.Pairwise (fun first second => first.1 < second.1) →
          rows.Nodup := by
    intro rows ordered
    refine ordered.imp ?_
    rintro first second before rfl
    exact Nat.lt_irrefl _ before
  exact ((List.perm_ext_iff_of_nodup (nodupOf storedSorted)
      (nodupOf sorted)).mpr sameMembers).eq_of_pairwise
    (fun _ _ _ _ before after => absurd before (Nat.lt_asymm after))
    storedSorted sorted

/--
A strictly increasing list of numbers from an interval of its own length
enumerates that interval.
-/
private theorem eq_range'_of_sorted
    {keys : List Nat}
    (low : Nat)
    (sorted : keys.Pairwise (· < ·))
    (bounded :
      ∀ key ∈ keys, low ≤ key ∧ key < low + keys.length) :
    keys = List.range' low keys.length := by
  induction keys generalizing low with
  | nil =>
      rfl
  | cons head rest inductionHypothesis =>
      obtain ⟨headBefore, restSorted⟩ := List.pairwise_cons.mp sorted
      have restBounded :
          ∀ key ∈ rest,
            low + 1 ≤ key ∧ key < low + 1 + rest.length := by
        intro key member
        have headBound := bounded head (by simp)
        have keyBound := bounded key (by simp [member])
        have ordered := headBefore key member
        simp only [List.length_cons] at headBound keyBound
        omega
      have restShape := inductionHypothesis (low + 1) restSorted restBounded
      have headShape : head = low := by
        have headBound := bounded head (by simp)
        by_contra different
        cases rest with
        | nil =>
            simp only [List.length_cons, List.length_nil] at headBound
            omega
        | cons second later =>
            have secondShape : second = low + 1 := by
              rw [List.length_cons, List.range'_succ] at restShape
              injection restShape
            have ordered := headBefore second (by simp)
            omega
      rw [List.length_cons, List.range'_succ, ← restShape, headShape]

namespace Covers

variable {map : BTreeMap Nat Value} {low high : Nat}

theorem keys_eq
    (covers : Covers map low high)
    (ordered : low ≤ high) :
    map.keys = List.range' low (high + 1 - low) := by
  have sameMembers :
      ∀ key, key ∈ map.keys ↔
        key ∈ List.range' low (high + 1 - low) := by
    intro key
    rw [Std.ExtTreeMap.mem_keys, covers key, List.mem_range'_1]
    omega
  have permutation :
      map.keys.Perm (List.range' low (high + 1 - low)) :=
    (List.perm_ext_iff_of_nodup
      ((keys_sorted map).imp (fun before => Nat.ne_of_lt before))
      List.nodup_range').mpr sameMembers
  have rangeSorted :
      (List.range' low (high + 1 - low)).Pairwise (· < ·) :=
    List.pairwise_lt_range'
  exact permutation.eq_of_pairwise
    (fun _ _ _ _ before after => absurd before (Nat.lt_asymm after))
    (keys_sorted map) rangeSorted

theorem firstKey?_eq
    (covers : Covers map low high)
    (ordered : low ≤ high) :
    firstKey? map = some low := by
  have shape : high + 1 - low = (high - low) + 1 := by omega
  rw [firstKey?, covers.keys_eq ordered, shape, List.range'_succ,
    List.head?_cons]

theorem lastKey?_eq
    (covers : Covers map low high)
    (ordered : low ≤ high) :
    lastKey? map = some high := by
  have shape : high + 1 - low = (high - low) + 1 := by omega
  have last : low + (high - low) = high := by omega
  rw [lastKey?, covers.keys_eq ordered, shape, List.range'_1_concat, last,
    List.getLast?_append, List.getLast?_singleton, Option.some_or]

theorem size_eq
    (covers : Covers map low high)
    (ordered : low ≤ high) :
    map.size = high - low + 1 := by
  rw [← Std.ExtTreeMap.length_keys, covers.keys_eq ordered,
    List.length_range']
  omega

theorem ne_empty
    (covers : Covers map low high)
    (ordered : low ≤ high) :
    map ≠ ∅ := by
  intro empty
  have member : low ∈ map := (covers low).mpr ⟨Nat.le_refl low, ordered⟩
  simp [empty] at member

theorem insertAbove
    (covers : Covers map low high)
    (ordered : low ≤ high)
    (value : Value) :
    Covers (Std.ExtTreeMap.insert map (high + 1) value) low (high + 1) := by
  intro key
  simp only [Std.ExtTreeMap.mem_insert, Nat.compare_eq_eq, covers key]
  omega

theorem retainBelow
    (covers : Covers map low high)
    {cut : Nat}
    (below : cut ≤ high) :
    Covers (retain (fun key _ => decide (key ≤ cut)) map) low cut := by
  intro key
  have here := covers key
  rw [mem_iff_getElem?] at here ⊢
  simp only [getElem?_retain, Option.filter_eq_some_iff,
    decide_eq_true_eq, exists_and_right, here]
  omega

end Covers

theorem covers_singleton (key : Nat) (value : Value) :
    Covers (Std.ExtTreeMap.insert (∅ : BTreeMap Nat Value) key value)
      key key := by
  intro query
  simp only [Std.ExtTreeMap.mem_insert, Nat.compare_eq_eq,
    Std.ExtTreeMap.not_mem_empty, or_false]
  omega

/-- The values of a function at `count` keys from `low` on. -/
def tabulate (value : Nat → Value) (low count : Nat) : BTreeMap Nat Value :=
  insertAll ∅
    ((List.range' low count).map (fun key => (key, value key)))

theorem getElem?_tabulate
    (value : Nat → Value)
    (low count key : Nat) :
    (tabulate value low count)[key]? =
      if low ≤ key ∧ key < low + count then some (value key) else none := by
  let source : Nat → Option Value := fun key => some (value key)
  have taken :
      ∀ entry ∈ (List.range' low count).map (fun key => (key, value key)),
        source entry.1 = some entry.2 := by
    intro entry member
    obtain ⟨other, -, rfl⟩ := List.mem_map.mp member
    rfl
  rw [tabulate, getElem?_insertAll_of_source ∅ taken key]
  simp only [source, List.map_map, Function.comp_def, List.map_id',
    List.mem_range'_1, Std.ExtTreeMap.getElem?_empty]

theorem tabulate_succ (value : Nat → Value) (low count : Nat) :
    tabulate value low (count + 1) =
      (tabulate value low count).insert (low + count)
        (value (low + count)) := by
  rw [tabulate, List.range'_concat, List.map_append]
  simp [tabulate, insertAll]

theorem covers_tabulate
    (value : Nat → Value)
    (low count : Nat) :
    Covers (tabulate value low (count + 1)) low (low + count) := by
  intro key
  rw [mem_iff_getElem?, getElem?_tabulate]
  constructor
  · rintro ⟨found, holds⟩
    split at holds
    · omega
    · cases holds
  · intro within
    exact ⟨value key, if_pos (by omega)⟩

/--
Counting is enough to recognise an interval: if the span between the first and
the last key equals the number of entries, no key in between is missing.
-/
theorem covers_of_span
    {map : BTreeMap Nat Value}
    {low high : Nat}
    (first : firstKey? map = some low)
    (last : lastKey? map = some high)
    (span : high - low + 1 = map.size) :
    Covers map low high ∧ low ≤ high := by
  have sorted := keys_sorted map
  have firstShape : ∃ rest, map.keys = low :: rest := by
    cases keysShape : map.keys with
    | nil =>
        simp [firstKey?, keysShape] at first
    | cons head rest =>
        simp only [firstKey?, keysShape, List.head?_cons,
          Option.some.injEq] at first
        exact ⟨rest, by rw [first]⟩
  obtain ⟨rest, keysShape⟩ := firstShape
  obtain ⟨leading, lastShape⟩ : ∃ leading, map.keys = leading ++ [high] :=
    List.getLast?_eq_some_iff.mp last
  have bounded :
      ∀ key ∈ map.keys, low ≤ key ∧ key ≤ high := by
    intro key member
    constructor
    · rw [keysShape] at member sorted
      rcases List.mem_cons.mp member with isFirst | inRest
      · omega
      · exact Nat.le_of_lt ((List.pairwise_cons.mp sorted).1 key inRest)
    · rw [lastShape] at member sorted
      rcases List.mem_append.mp member with inLeading | isLast
      · exact Nat.le_of_lt
          ((List.pairwise_append.mp sorted).2.2 key inLeading high (by simp))
      · simp only [List.mem_singleton] at isLast
        omega
  have ordered : low ≤ high := (bounded low (by simp [keysShape])).2
  have lengthShape : map.keys.length = high - low + 1 := by
    rw [Std.ExtTreeMap.length_keys, span]
  have enumerated :=
    eq_range'_of_sorted low sorted (by
      intro key member
      have keyBound := bounded key member
      omega)
  refine ⟨?_, ordered⟩
  intro key
  rw [← Std.ExtTreeMap.mem_keys, enumerated, List.mem_range'_1]
  omega

end Intervals

end BTreeMap

/-- An ordered set whose equality is equality of members. -/
abbrev BTreeSet (Key : Type) [Ord Key] :=
  Std.ExtTreeSet Key

namespace BTreeSet

variable {Key : Type} [Ord Key] [Std.TransOrd Key] [Std.LawfulEqOrd Key]

variable {members : BTreeSet Key}

@[simp] theorem mem_insert_eq
    {key query : Key} :
    query ∈ Std.ExtTreeSet.insert members key ↔
      query = key ∨ query ∈ members := by
  rw [Std.ExtTreeSet.mem_insert, Std.compare_eq_iff_eq, eq_comm]

@[simp] theorem mem_erase_eq
    {key query : Key} :
    query ∈ Std.ExtTreeSet.erase members key ↔
      query ≠ key ∧ query ∈ members := by
  rw [Std.ExtTreeSet.mem_erase, ne_eq, Std.compare_eq_iff_eq, eq_comm]

/--
A loop over the members of a set whose every round touches only what is looked
up under its own member changes each member once.
-/
theorem look_foldl_toList
    {State Out : Type}
    (members : BTreeSet Key)
    (round : State → Key → State)
    (look : State → Key → Out)
    (change : Key → Out → Out)
    (same :
      ∀ state key,
        look (round state key) key = change key (look state key))
    (other :
      ∀ state key query, key ≠ query →
        look (round state key) query = look state query)
    (state : State)
    (query : Key) :
    look (members.toList.foldl round state) query =
      if query ∈ members then
        change query (look state query)
      else
        look state query := by
  have otherMember :
      ∀ state (key : Key) query, key ∈ members.toList → id key ≠ query →
        look (round state key) query = look state query :=
    fun state key query _ => other state key query
  have distinct : (members.toList.map id).Nodup := by
    rw [List.map_id]
    exact Std.ExtTreeSet.distinct_toList.imp (fun different equal =>
      different (Std.compare_eq_iff_eq.mpr equal))
  by_cases member : query ∈ members
  · rw [if_pos member]
    exact BTreeMap.look_foldl_touched change distinct
      (fun state key _ => same state key) otherMember state
      (Std.ExtTreeSet.mem_toList.mpr member)
  · rw [if_neg member]
    refine BTreeMap.look_foldl_untouched otherMember state ?_
    rw [List.map_id, Std.ExtTreeSet.mem_toList]
    exact member

omit [Std.LawfulEqOrd Key] in
theorem isEmpty_eq_false_of_mem
    {key : Key}
    (member : key ∈ members) :
    members.isEmpty = false := by
  rw [Std.ExtTreeSet.isEmpty_eq_false_iff]
  rintro rfl
  simp at member

end BTreeSet

end Bwk
