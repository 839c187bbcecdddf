import Mathlib

namespace Bwk.Merkle

/-!
# Merkle trees that repeat the last node

A level with an odd number of nodes is read as if its last node stood there
twice.  A branch climbs from a leaf to the root; it opens a leaf of the perfect
tree that all these repetitions amount to.
-/

variable {Node : Type} (hashPair : Node → Node → Node)

/-- A node of a level, the last one standing for those past the end. -/
def repeated (nodes : List Node) (index : Nat) : Option Node :=
  nodes[min index (nodes.length - 1)]?

/-- The level above. -/
def parents : List Node → List Node
  | [] => []
  | [last] => [hashPair last last]
  | left :: right :: rest => hashPair left right :: parents rest

/-- What stands above a level after climbing some levels. -/
def rootAt : Nat → List Node → Option Node
  | 0, nodes => nodes.head?
  | height + 1, nodes => rootAt height (parents hashPair nodes)

/-- The height of a tree by its number of leaves. -/
def heightOf (count : Nat) : Nat :=
  Nat.clog 2 count

def root (leaves : List Node) : Option Node :=
  rootAt hashPair (heightOf leaves.length) leaves

/-- The other child of the parent of a node. -/
def sibling (nodes : List Node) (index : Nat) : Option Node :=
  repeated nodes (if index % 2 = 0 then index + 1 else index - 1)

/-- The siblings on the way up from a node, lowest first. -/
def branchAt : Nat → List Node → Nat → List Node
  | 0, _, _ => []
  | height + 1, nodes, index =>
      (sibling nodes index).toList ++
        branchAt height (parents hashPair nodes) (index / 2)

def branch (leaves : List Node) (index : Nat) : List Node :=
  branchAt hashPair (heightOf leaves.length) leaves index

def parentOf (node sibling : Node) (index : Nat) : Node :=
  if index % 2 = 0 then hashPair node sibling else hashPair sibling node

def climb : Node → List Node → Nat → Node
  | node, [], _ => node
  | node, sibling :: rest, index =>
      climb (parentOf hashPair node sibling index) rest (index / 2)

/-- The leaf that stands at a position of the perfect tree. -/
def leafIndex : Nat → Nat → Nat → Nat
  | 0, _, _ => 0
  | height + 1, count, position =>
      min
        (2 * leafIndex height ((count + 1) / 2) (position / 2) + position % 2)
        (count - 1)

/-- The leaves of the perfect tree of some height over the given ones. -/
def padded (height : Nat) (leaves : List Node) : List Node :=
  (List.range (2 ^ height)).filterMap fun position =>
    leaves[leafIndex height leaves.length position]?

/-- Two pairs of nodes with one hash. -/
def Collision : Prop :=
  ∃ left right left' right',
    (left, right) ≠ (left', right') ∧
      hashPair left right = hashPair left' right'

variable {hashPair}
variable {nodes : List Node} {index : Nat}

@[simp]
theorem length_parents (nodes : List Node) :
    (parents hashPair nodes).length = (nodes.length + 1) / 2 := by
  induction nodes using parents.induct with
  | case1 => simp [parents]
  | case2 => simp [parents]
  | case3 left right rest inductionHypothesis =>
      rw [parents, List.length_cons, inductionHypothesis, List.length_cons,
        List.length_cons]
      omega

theorem parents_ne_nil (nonempty : nodes ≠ []) :
    parents hashPair nodes ≠ [] := by
  have positive := List.length_pos_of_ne_nil nonempty
  apply List.ne_nil_of_length_pos
  rw [length_parents]
  omega

theorem repeated_of_lt (inside : index < nodes.length) :
    repeated nodes index = nodes[index]? := by
  rw [repeated, min_eq_left (by omega)]

theorem repeated_isSome (nonempty : nodes ≠ []) (index : Nat) :
    ∃ node, repeated nodes index = some node := by
  have positive := List.length_pos_of_ne_nil nonempty
  have inside : min index (nodes.length - 1) < nodes.length := by
    omega
  exact ⟨_, List.getElem?_eq_getElem inside⟩

theorem repeated_cons_cons
    (left right : Node)
    {rest : List Node}
    (nonempty : rest ≠ [])
    (index : Nat) :
    repeated (left :: right :: rest) (index + 2) = repeated rest index := by
  have positive := List.length_pos_of_ne_nil nonempty
  have shift :
      min (index + 2) ((left :: right :: rest).length - 1) =
        min index (rest.length - 1) + 2 := by
    rw [List.length_cons, List.length_cons]
    omega
  rw [repeated, shift]
  rfl

theorem getElem?_parents
    (hashPair : Node → Node → Node)
    (inside : index < (nodes.length + 1) / 2) :
    ∃ left right,
      repeated nodes (2 * index) = some left ∧
        repeated nodes (2 * index + 1) = some right ∧
        (parents hashPair nodes)[index]? = some (hashPair left right) := by
  induction nodes using parents.induct generalizing index with
  | case1 =>
      simp at inside
  | case2 last =>
      have first : index = 0 := by
        simp at inside
        exact inside
      subst first
      exact ⟨last, last, rfl, rfl, rfl⟩
  | case3 left right rest inductionHypothesis =>
      cases index with
      | zero =>
          refine ⟨left, right, rfl, ?_, rfl⟩
          rw [repeated_of_lt (by simp)]
          rfl
      | succ index =>
          have below : index < (rest.length + 1) / 2 := by
            rw [List.length_cons, List.length_cons] at inside
            omega
          have nonempty : rest ≠ [] := by
            rintro rfl
            simp at below
          obtain ⟨left', right', readsLeft, readsRight, hashed⟩ :=
            inductionHypothesis below
          refine ⟨left', right', ?_, ?_, hashed⟩
          · rw [show 2 * (index + 1) = 2 * index + 2 by ring,
              repeated_cons_cons left right nonempty, readsLeft]
          · rw [show 2 * (index + 1) + 1 = 2 * index + 1 + 2 by ring,
              repeated_cons_cons left right nonempty, readsRight]

variable {height : Nat} {node : Node}

theorem getElem?_parents_half
    (hashPair : Node → Node → Node)
    (found : repeated nodes index = some node)
    (inside : index / 2 < (nodes.length + 1) / 2) :
    ∃ other,
      sibling nodes index = some other ∧
        (parents hashPair nodes)[index / 2]? =
          some (parentOf hashPair node other index) := by
  obtain ⟨left, right, readsLeft, readsRight, hashed⟩ :=
    getElem?_parents hashPair inside
  rcases Nat.mod_two_eq_zero_or_one index with even | odd
  · have half : 2 * (index / 2) = index := by omega
    rw [half, found] at readsLeft
    cases readsLeft
    refine ⟨right, ?_, ?_⟩
    · rw [sibling, if_pos even, ← readsRight, half]
    · rw [hashed, parentOf, if_pos even]
  · have half : 2 * (index / 2) + 1 = index := by omega
    have other : 2 * (index / 2) = index - 1 := by omega
    rw [half, found] at readsRight
    cases readsRight
    have notEven : ¬ index % 2 = 0 := by omega
    refine ⟨left, ?_, ?_⟩
    · rw [sibling, if_neg notEven, ← readsLeft, other]
    · rw [hashed, parentOf, if_neg notEven]

theorem climb_branchAt
    (hashPair : Node → Node → Node)
    (found : nodes[index]? = some node)
    (fits : nodes.length ≤ 2 ^ height) :
    rootAt hashPair height nodes =
      some (climb hashPair node (branchAt hashPair height nodes index) index) := by
  induction height generalizing nodes node index with
  | zero =>
      have inside := (List.getElem?_eq_some_iff.mp found).1
      have first : index = 0 := by
        omega
      subst first
      rw [rootAt, List.head?_eq_getElem?, found]
      rfl
  | succ height inductionHypothesis =>
      have inside := (List.getElem?_eq_some_iff.mp found).1
      have half : index / 2 < (nodes.length + 1) / 2 := by
        omega
      obtain ⟨other, sibling, parent⟩ :=
        getElem?_parents_half hashPair
          ((repeated_of_lt inside).trans found) half
      rw [rootAt, branchAt, sibling]
      refine inductionHypothesis parent ?_
      rw [length_parents]
      rw [Nat.pow_succ] at fits
      omega

theorem length_le_pow_heightOf (count : Nat) :
    count ≤ 2 ^ heightOf count :=
  Nat.le_pow_clog (by decide) count

theorem length_branchAt
    (nonempty : nodes ≠ [])
    (height index : Nat) :
    (branchAt hashPair height nodes index).length = height := by
  induction height generalizing nodes index with
  | zero => rfl
  | succ height inductionHypothesis =>
      have above : parents hashPair nodes ≠ [] := parents_ne_nil nonempty
      obtain ⟨other, sibling⟩ :=
        repeated_isSome nonempty
          (if index % 2 = 0 then index + 1 else index - 1)
      rw [branchAt, Merkle.sibling, sibling, Option.toList_some,
        List.singleton_append, List.length_cons,
        inductionHypothesis above]

theorem leafIndex_lt
    {height count : Nat}
    (positive : 0 < count)
    (position : Nat) :
    leafIndex height count position < count := by
  cases height with
  | zero => exact positive
  | succ height =>
      rw [leafIndex]
      omega

/-- A branch as long as the tree is high that climbs to its root opens the leaf
at its position, unless it shows a collision. -/
theorem leaf_of_climb
    {leaf : Node}
    {siblings : List Node}
    {position : Nat}
    (nonempty : nodes ≠ [])
    (fits : nodes.length ≤ 2 ^ height)
    (long : siblings.length = height)
    (inside : position < 2 ^ height)
    (climbs :
      rootAt hashPair height nodes =
        some (climb hashPair leaf siblings position)) :
    nodes[leafIndex height nodes.length position]? = some leaf ∨
      Collision hashPair := by
  have positive := List.length_pos_of_ne_nil nonempty
  induction height generalizing nodes leaf siblings position with
  | zero =>
      rw [List.length_eq_zero_iff] at long
      subst long
      rw [rootAt, List.head?_eq_getElem?] at climbs
      exact .inl climbs
  | succ height inductionHypothesis =>
      cases siblings with
      | nil => cases long
      | cons other rest =>
          rw [Nat.pow_succ] at fits inside
          have above : parents hashPair nodes ≠ [] := parents_ne_nil nonempty
          have opened :=
            inductionHypothesis above (by rw [length_parents]; omega)
              (Nat.succ.inj long) (by omega) climbs
              (List.length_pos_of_ne_nil above)
          rw [length_parents] at opened
          rcases opened with parent | collision
          · -- The parent the branch computes is the one of the tree.
            have below :
                leafIndex height ((nodes.length + 1) / 2) (position / 2) <
                  (nodes.length + 1) / 2 :=
              leafIndex_lt (by omega) _
            obtain ⟨left, right, readsLeft, readsRight, hashed⟩ :=
              getElem?_parents hashPair below
            rw [hashed] at parent
            have same := Option.some.inj parent
            rw [leafIndex]
            change repeated nodes _ = _ ∨ _
            rcases Nat.mod_two_eq_zero_or_one position with even | odd
            · rw [even, Nat.add_zero, readsLeft]
              rw [parentOf, if_pos even] at same
              by_cases equal : left = leaf
              · exact .inl (congrArg some equal)
              · refine .inr ⟨left, right, leaf, other, ?_, same⟩
                exact fun pair => equal (Prod.mk.inj pair).1
            · rw [odd, readsRight]
              rw [parentOf, if_neg (by omega)] at same
              by_cases equal : right = leaf
              · exact .inl (congrArg some equal)
              · refine .inr ⟨left, right, other, leaf, ?_, same⟩
                exact fun pair => equal (Prod.mk.inj pair).2
          · exact .inr collision

theorem padded_eq_map
    (positive : 0 < nodes.length)
    (height : Nat) :
    padded height nodes =
      (List.range (2 ^ height)).map fun position =>
        nodes.get
          ⟨leafIndex height nodes.length position,
            leafIndex_lt positive position⟩ := by
  rw [padded, List.filterMap_eq_map_iff_forall_eq_some]
  intro position _
  exact List.getElem?_eq_getElem _

theorem getElem?_padded
    (nonempty : nodes ≠ [])
    {height position : Nat}
    (inside : position < 2 ^ height) :
    (padded height nodes)[position]? =
      nodes[leafIndex height nodes.length position]? := by
  rw [padded_eq_map (List.length_pos_of_ne_nil nonempty), List.getElem?_map,
    List.getElem?_range inside, Option.map_some]
  exact (List.getElem?_eq_getElem _).symm

end Bwk.Merkle
