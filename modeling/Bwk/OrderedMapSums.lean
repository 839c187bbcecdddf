import Bwk.OrderedMap

namespace Bwk

/-!
# Sums over ordered maps

The sum of something over the entries of a map is a sum over any finite set
of keys that has the map's, so sums over maps with different keys can be
compared key by key.
-/

namespace BTreeMap

variable {Key Value Total : Type} [Ord Key] [Std.TransOrd Key]
variable [Std.LawfulEqOrd Key] [DecidableEq Key] [AddCommMonoid Total]

/-- The sum of a value over the entries of a map. -/
def total
    (map : BTreeMap Key Value)
    (value : Key → Value → Total) : Total :=
  (map.toList.map (fun row => value row.1 row.2)).sum

/-- What a key adds to a total. -/
def share
    (map : BTreeMap Key Value)
    (value : Key → Value → Total)
    (key : Key) : Total :=
  (map[key]?).elim 0 (value key)

/-- A total is the sum of the shares of any keys that have the map's. -/
theorem total_eq_sum
    (map : BTreeMap Key Value)
    (value : Key → Value → Total)
    {keys : Finset Key}
    (covered : ∀ key, key ∈ map → key ∈ keys) :
    map.total value = ∑ key ∈ keys, map.share value key := by
  have distinct := nodup_toList map
  have found :
      ∀ row ∈ map.toList, map.share value row.1 = value row.1 row.2 := by
    intro row member
    rw [share, Std.ExtTreeMap.mem_toList_iff_getElem?_eq_some.mp member]
    rfl
  have listed :
      (map.toList.map Prod.fst).toFinset ⊆ keys := by
    intro key member
    rw [List.mem_toFinset, Std.ExtTreeMap.map_fst_toList_eq_keys,
      Std.ExtTreeMap.mem_keys] at member
    exact covered key member
  calc map.total value
      = ((map.toList.map Prod.fst).map (map.share value)).sum := by
        rw [total, List.map_map]
        exact congrArg List.sum
          (List.map_congr_left (fun row member => (found row member).symm))
    _ = ∑ key ∈ (map.toList.map Prod.fst).toFinset,
          map.share value key :=
        (List.sum_toFinset _ distinct).symm
    _ = ∑ key ∈ keys, map.share value key := by
        refine Finset.sum_subset listed (fun key _ absent => ?_)
        rw [List.mem_toFinset, Std.ExtTreeMap.map_fst_toList_eq_keys,
          Std.ExtTreeMap.mem_keys, not_mem_iff_getElem?] at absent
        rw [share, absent]
        rfl

theorem share_insert
    (map : BTreeMap Key Value)
    (value : Key → Value → Total)
    (key : Key)
    (entry : Value)
    (other : Key) :
    share (map.insert key entry) value other =
      if other = key then value key entry else map.share value other := by
  unfold share
  by_cases same : other = key
  · subst same
    simp
  · simp [Std.ExtTreeMap.getElem?_insert, same, Ne.symm same]

/-- Insertion adds the new value and takes the old one away. -/
theorem total_insert
    (map : BTreeMap Key Value)
    (value : Key → Value → Total)
    (key : Key)
    (entry : Value) :
    total (map.insert key entry) value + map.share value key =
      map.total value + value key entry := by
  let keys := insert key (map.keys).toFinset
  have covered : ∀ other, other ∈ map → other ∈ keys := by
    intro other present
    simp [keys, present]
  have alsoCovered : ∀ other, other ∈ map.insert key entry → other ∈ keys := by
    intro other present
    rw [Std.ExtTreeMap.mem_insert] at present
    rcases present with same | present
    · simp [keys, Std.LawfulEqOrd.compare_eq_iff_eq.mp same]
    · exact covered other present
  have listed : key ∈ keys := Finset.mem_insert_self _ _
  have others :
      ∑ other ∈ keys.erase key, share (map.insert key entry) value other =
        ∑ other ∈ keys.erase key, map.share value other := by
    refine Finset.sum_congr rfl (fun other member => ?_)
    rw [share_insert, if_neg (Finset.ne_of_mem_erase member)]
  rw [total_eq_sum _ value alsoCovered, total_eq_sum _ value covered,
    ← Finset.add_sum_erase keys _ listed,
    ← Finset.add_sum_erase keys (map.share value) listed, others,
    share_insert, if_pos rfl]
  abel

end BTreeMap

end Bwk
