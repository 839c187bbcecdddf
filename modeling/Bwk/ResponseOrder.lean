import Bwk.Attributor

namespace Bwk.Mitm

/-!
# How far responses are from the order of their requests

The requests of a connection that are outstanding, in the order they were first
sent, against the queue of ids that `mitm/src/attribute.rs` keeps.
-/

def sentId (serde : Serde) : Direction × Bytes → Option String
  | (.up, raw) =>
      match serde.envelope raw with
      | some ⟨some _, key, _⟩ => key
      | _ => none
  | (.down, _) => none

def answeredId (serde : Serde) : Direction × Bytes → Option String
  | (.up, _) => none
  | (.down, raw) => (serde.envelope raw).bind Envelope.id

/-- The outstanding ids after an element, in the order they were first sent. -/
def sees
    (serde : Serde)
    (outstanding : List String)
    (element : Direction × Bytes) : List String :=
  match sentId serde element, answeredId serde element with
  | some key, _ =>
      if key ∈ outstanding then outstanding else outstanding ++ [key]
  | none, some key => outstanding.erase key
  | none, none => outstanding

/-- How many outstanding requests were first sent before the one that an
element answers. -/
def place
    (serde : Serde)
    (outstanding : List String)
    (element : Direction × Bytes) : Option Nat :=
  match answeredId serde element with
  | some key =>
      if key ∈ outstanding then some (outstanding.idxOf key) else none
  | none => none

/-- The places of what is answered, element by element. -/
def places
    (serde : Serde) :
    List String → List (Direction × Bytes) → List (Option Nat)
  | _, [] => []
  | outstanding, element :: later =>
      place serde outstanding element ::
        places serde (sees serde outstanding element) later

/-- Every element of some traffic keeps a rule about what is outstanding. -/
def Along
    (serde : Serde)
    (rule : List String → Direction × Bytes → Prop) :
    List String → List (Direction × Bytes) → Prop
  | _, [] => True
  | outstanding, element :: later =>
      rule outstanding element ∧
        Along serde rule (sees serde outstanding element) later

instance decidableAlong
    (serde : Serde)
    (rule : List String → Direction × Bytes → Prop)
    [∀ outstanding element, Decidable (rule outstanding element)] :
    ∀ outstanding traffic, Decidable (Along serde rule outstanding traffic)
  | _, [] => isTrue trivial
  | outstanding, element :: later =>
      haveI := decidableAlong serde rule (sees serde outstanding element) later
      inferInstanceAs (Decidable (_ ∧ _))

/-- No more requests are outstanding than are tracked. -/
def Tracked
    (serde : Serde)
    (outstanding : List String)
    (element : Direction × Bytes) : Prop :=
  (sees serde outstanding element).length ≤ maxOutstanding
deriving Decidable

/-- No id is sent again while it is outstanding. -/
def Fresh
    (serde : Serde)
    (outstanding : List String)
    (element : Direction × Bytes) : Prop :=
  ∀ key ∈ sentId serde element, key ∉ outstanding
deriving Decidable

/-- What is answered was sent before everything else outstanding. -/
def InOrder
    (serde : Serde)
    (outstanding : List String)
    (element : Direction × Bytes) : Prop :=
  ∀ key ∈ answeredId serde element,
    key ∈ outstanding → outstanding.head? = some key
deriving Decidable

def elementsOf
    (serde : Serde)
    (line : Direction × Bytes) : List (Direction × Bytes) :=
  ((serde.elements line.2).getD [line.2]).map (line.1, ·)

/-- The elements of the complete lines, in the order they arrive. -/
def traffic
    (serde : Serde)
    (chunks : List (Direction × Bytes)) : List (Direction × Bytes) :=
  (arrivals (fun _ => []) chunks).flatMap (elementsOf serde)

def reports
    (serde : Serde)
    (chunks : List (Direction × Bytes)) : List ElementUpdate :=
  (Attributor.new.feeds serde chunks).2.flatMap LineUpdate.elements

/-- The displacement of a response to an outstanding request. -/
def ElementUpdate.displacement? : ElementUpdate → Option Nat
  | .attributed _ _ => none
  | .matched _ _ displacement _ => some displacement
  | .unattributed _ => none

namespace Requests

def observe
    (serde : Serde) :
    Requests → List (Direction × Bytes) → Requests × List ElementUpdate
  | requests, [] => (requests, [])
  | requests, (dir, raw) :: later =>
      let (requests, update) := requests.attributeElement serde dir raw
      let (requests, updates) := observe serde requests later
      (requests, update :: updates)

theorem observe_append
    (serde : Serde)
    (requests : Requests)
    (elements later : List (Direction × Bytes)) :
    requests.observe serde (elements ++ later) =
      (((requests.observe serde elements).1.observe serde later).1,
        (requests.observe serde elements).2 ++
          ((requests.observe serde elements).1.observe serde later).2) := by
  induction elements generalizing requests with
  | nil =>
      rfl
  | cons element elements inductionHypothesis =>
      simp only [List.cons_append, observe, inductionHypothesis]

theorem attributeAll_eq_observe
    (serde : Serde)
    (requests : Requests)
    (dir : Direction)
    (elements : List Bytes) :
    requests.attributeAll serde dir elements =
      requests.observe serde (elements.map (dir, ·)) := by
  induction elements generalizing requests with
  | nil =>
      rfl
  | cons raw later inductionHypothesis =>
      simp only [attributeAll, List.map_cons, observe, inductionHypothesis]

theorem onLine_eq_observe
    (serde : Serde)
    (requests : Requests)
    (dir : Direction)
    (line : Bytes) :
    ((requests.onLine serde dir line).1,
      (requests.onLine serde dir line).2.elements) =
      requests.observe serde (elementsOf serde (dir, line)) := by
  unfold onLine elementsOf
  cases read : serde.elements line with
  | none =>
      rfl
  | some elements =>
      exact attributeAll_eq_observe serde requests dir elements

theorem onLines_eq_observe
    (serde : Serde)
    (requests : Requests)
    (lines : List (Direction × Bytes)) :
    ((requests.onLines serde lines).1,
      (requests.onLines serde lines).2.flatMap LineUpdate.elements) =
      requests.observe serde (lines.flatMap (elementsOf serde)) := by
  induction lines generalizing requests with
  | nil =>
      rfl
  | cons first later inductionHypothesis =>
      obtain ⟨dir, line⟩ := first
      rw [List.flatMap_cons, observe_append, ← inductionHypothesis,
        ← onLine_eq_observe]
      rfl

end Requests

theorem reports_eq_observe
    (serde : Serde)
    (chunks : List (Direction × Bytes)) :
    reports serde chunks =
      (Requests.new.observe serde (traffic serde chunks)).2 := by
  have fed :
      (Attributor.new.feeds serde chunks).2 =
        (Requests.new.onLines serde (arrivals (fun _ => []) chunks)).2 :=
    Attributor.feeds_eq_onLines serde (fun _ => rfl) chunks
  rw [reports, fed, traffic, ← Requests.onLines_eq_observe]

/-- The map and the queue hold exactly what is outstanding. -/
structure InStep
    (requests : Requests)
    (outstanding : List String) : Prop where
  queued : requests.sentOrder = outstanding
  pending : ∀ key, key ∈ requests.pending ↔ key ∈ outstanding
  distinct : outstanding.Nodup

theorem inStep_new : InStep .new [] where
  queued := rfl
  pending key := by
    constructor
    · intro present
      exact absurd present Std.ExtTreeMap.not_mem_empty
    · intro absent
      cases absent
  distinct := List.nodup_nil

variable {outstanding : List String} {requests : Requests}

theorem InStep.push
    (inStep : InStep requests outstanding)
    {key : String}
    (fresh : key ∉ outstanding)
    (tracked : (outstanding ++ [key]).length ≤ maxOutstanding)
    (method : String) :
    InStep
      ⟨requests.pending.insert key method,
        Requests.pushSentOrder requests.sentOrder key⟩
      (outstanding ++ [key]) where
  queued := by
    rw [inStep.queued, Requests.pushSentOrder, if_neg (Nat.not_lt.mpr tracked)]
  pending other := by
    rw [Std.ExtTreeMap.mem_insert, Std.LawfulEqOrd.compare_eq_iff_eq,
      inStep.pending, List.mem_append, List.mem_singleton, or_comm,
      eq_comm (a := other)]
  distinct := by
    rw [← List.concat_eq_append]
    exact inStep.distinct.concat fresh

theorem InStep.resolve
    (inStep : InStep requests outstanding)
    {key : String}
    (sent : key ∈ outstanding) :
    Requests.resolveOrder requests.sentOrder key =
      (outstanding.idxOf key, outstanding.erase key) := by
  have found :
      outstanding.findIdx? (· = key) = some (outstanding.idxOf key) := by
    rw [List.findIdx?_eq_some_iff_findIdx_eq]
    exact ⟨List.idxOf_lt_length_of_mem sent, rfl⟩
  rw [inStep.queued, Requests.resolveOrder, found,
    List.erase_eq_eraseIdx_of_idxOf rfl]

theorem InStep.erase
    (inStep : InStep requests outstanding)
    (key : String) :
    InStep
      ⟨requests.pending.erase key, outstanding.erase key⟩
      (outstanding.erase key) where
  queued := rfl
  pending other := by
    rw [Std.ExtTreeMap.mem_erase, inStep.pending, inStep.distinct.mem_erase_iff,
      ne_eq, Std.LawfulEqOrd.compare_eq_iff_eq, eq_comm]
  distinct := inStep.distinct.erase key

theorem InStep.absent
    (inStep : InStep requests outstanding)
    {key : String}
    (none : requests.pending[key]? = none) : key ∉ outstanding := by
  rw [← inStep.pending, BTreeMap.not_mem_iff_getElem?]
  exact none

/-- What an element does while no id is sent again and all are tracked. -/
theorem InStep.attributeElement
    {serde : Serde}
    (inStep : InStep requests outstanding)
    {dir : Direction}
    {raw : Bytes}
    (fresh : Fresh serde outstanding (dir, raw))
    (tracked : Tracked serde outstanding (dir, raw)) :
    InStep (requests.attributeElement serde dir raw).1
        (sees serde outstanding (dir, raw)) ∧
      (requests.attributeElement serde dir raw).2.displacement? =
        place serde outstanding (dir, raw) := by
  unfold Fresh at fresh
  unfold Tracked sees at tracked
  unfold Requests.attributeElement sees place
  cases dir with
  | up =>
      cases read : serde.envelope raw with
      | none =>
          simp only [sentId, answeredId, read]
          exact ⟨inStep, rfl⟩
      | some envelope =>
          obtain ⟨_ | method, _ | key, error⟩ := envelope
          · simp only [sentId, answeredId, read]
            exact ⟨inStep, rfl⟩
          · simp only [sentId, answeredId, read]
            exact ⟨inStep, rfl⟩
          · simp only [sentId, answeredId, read]
            exact ⟨inStep, rfl⟩
          · have new : key ∉ outstanding :=
              fresh key (by simp [sentId, read])
            simp only [sentId, answeredId, read, if_neg new] at tracked ⊢
            exact ⟨inStep.push new tracked method, rfl⟩
  | down =>
      cases read : serde.envelope raw with
      | none =>
          simp only [sentId, answeredId, read, Option.bind_none]
          exact ⟨inStep, rfl⟩
      | some envelope =>
          obtain ⟨method, _ | key, error⟩ := envelope
          · simp only [sentId, answeredId, read, Option.bind_some]
            cases method <;> exact ⟨inStep, rfl⟩
          · simp only [sentId, answeredId, read, Option.bind_some]
            cases found : requests.pending[key]? with
            | none =>
                have unknown := inStep.absent found
                simp only [if_neg unknown, List.erase_of_not_mem unknown]
                exact ⟨inStep, rfl⟩
            | some sentMethod =>
                have sent : key ∈ outstanding := by
                  rw [← inStep.pending, Std.ExtTreeMap.mem_iff_isSome_getElem?,
                    found]
                  rfl
                simp only [if_pos sent, inStep.resolve sent]
                exact ⟨inStep.erase key, rfl⟩

/-- Along traffic whose every element keeps the rules, each response is
reported at its place. -/
theorem InStep.observe
    {serde : Serde}
    (inStep : InStep requests outstanding)
    {elements : List (Direction × Bytes)}
    (fresh : Along serde (Fresh serde) outstanding elements)
    (tracked : Along serde (Tracked serde) outstanding elements) :
    (requests.observe serde elements).2.map ElementUpdate.displacement? =
      places serde outstanding elements := by
  induction elements generalizing requests outstanding with
  | nil =>
      rfl
  | cons element later inductionHypothesis =>
      obtain ⟨dir, raw⟩ := element
      obtain ⟨next, reported⟩ :=
        inStep.attributeElement fresh.1 tracked.1
      rw [Requests.observe, List.map_cons, places, reported,
        inductionHypothesis next fresh.2 tracked.2]

/-- An element that answers nothing late leaves the order statistics alone. -/
theorem ConnMetrics.order_applyElement
    (conn : ConnMetrics)
    (dir : Direction)
    {element : ElementUpdate}
    (prompt : ∀ displacement ∈ element.displacement?, displacement = 0) :
    (conn.applyElement dir element).order = conn.order := by
  cases element with
  | attributed method bytes =>
      rfl
  | matched method bytes displacement error =>
      have zero : displacement = 0 := prompt displacement rfl
      cases error with
      | none =>
          simp [applyElement, record, countRoundTrip, recordOrder, zero]
      | some error =>
          simp [applyElement, recordError, record, countRoundTrip, recordOrder,
            zero]
  | unattributed bytes =>
      rfl

theorem ConnMetrics.order_applyElements
    (conn : ConnMetrics)
    (dir : Direction)
    {elements : List ElementUpdate}
    (prompt : ∀ element ∈ elements,
      ∀ displacement ∈ element.displacement?, displacement = 0) :
    (elements.foldl (applyElement · dir ·) conn).order = conn.order := by
  induction elements generalizing conn with
  | nil =>
      rfl
  | cons element later inductionHypothesis =>
      rw [List.foldl_cons, inductionHypothesis _
        (fun element listed => prompt element (.tail _ listed)),
        order_applyElement conn dir (prompt element (.head _))]

theorem ConnMetrics.order_applyLines
    (conn : ConnMetrics)
    {updates : List LineUpdate}
    (prompt : ∀ element ∈ updates.flatMap LineUpdate.elements,
      ∀ displacement ∈ element.displacement?, displacement = 0) :
    (updates.foldl applyLine conn).order = conn.order := by
  induction updates generalizing conn with
  | nil =>
      rfl
  | cons update later inductionHypothesis =>
      rw [List.flatMap_cons] at prompt
      rw [List.foldl_cons, inductionHypothesis _
        (fun element listed =>
          prompt element (List.mem_append_right _ listed))]
      calc (conn.applyLine update).order
          = (update.elements.foldl (applyElement · update.dir ·)
              (conn.recordLineSize update.dir update.lineSize)).order := by
            unfold applyLine recordFraming
            cases update.dir <;> rfl
        _ = (conn.recordLineSize update.dir update.lineSize).order :=
            order_applyElements _ _ (fun element listed =>
              prompt element (List.mem_append_left _ listed))
        _ = conn.order := by
            unfold recordLineSize
            cases update.dir <;> rfl

theorem eq_zero_of_inOrder
    {serde : Serde}
    {elements : List (Direction × Bytes)}
    (inOrder : Along serde (InOrder serde) outstanding elements) :
    ∀ found ∈ places serde outstanding elements,
      ∀ displacement ∈ found, displacement = 0 := by
  induction elements generalizing outstanding with
  | nil =>
      intro found listed
      cases listed
  | cons element later inductionHypothesis =>
      intro found listed displacement measured
      rcases List.mem_cons.mp listed with rfl | listed
      · unfold place at measured
        split at measured
        · next key answered =>
          split at measured
          · next sent =>
            cases measured
            obtain ⟨others, rfl⟩ :=
              List.head?_eq_some_iff.mp (inOrder.1 key answered sent)
            exact List.idxOf_cons_self
          · cases measured
        · cases measured
      · exact inductionHypothesis inOrder.2 found listed displacement measured

/-- While no id is sent again before it is answered, and no more requests are
outstanding than are tracked, every response is reported at its place among
the outstanding requests, and a server that answers in order is never reported
as out of order. -/
theorem displacements_exact
    (serde : Serde)
    {chunks : List (Direction × Bytes)}
    (tracked : Along serde (Tracked serde) [] (traffic serde chunks))
    (fresh : Along serde (Fresh serde) [] (traffic serde chunks)) :
    (reports serde chunks).map ElementUpdate.displacement? =
        places serde [] (traffic serde chunks) ∧
      (Along serde (InOrder serde) [] (traffic serde chunks) →
        (account serde chunks).order = ⟨0, 0⟩) := by
  have reported :
      (reports serde chunks).map ElementUpdate.displacement? =
        places serde [] (traffic serde chunks) := by
    rw [reports_eq_observe]
    exact inStep_new.observe fresh tracked
  refine ⟨reported, fun inOrder => ?_⟩
  refine ConnMetrics.order_applyLines .new (fun element listed => ?_)
  refine eq_zero_of_inOrder inOrder _ ?_
  rw [← reported]
  exact List.mem_map_of_mem listed

namespace Sample

def reused : List (Direction × Bytes) :=
  [(.up, request ++ [newline]), (.down, response ++ [newline]),
    (.up, request₂ ++ [newline] ++ request ++ [newline]),
    (.down, response ++ [newline])]

def resent : List (Direction × Bytes) :=
  [(.up, request ++ [newline]), (.up, request ++ [newline]),
    (.down, response ++ [newline]), (.up, request₂ ++ [newline]),
    (.down, response₂ ++ [newline])]

end Sample

theorem displacements_exact_reused :
    Along Sample.serde (Tracked Sample.serde) []
        (traffic Sample.serde Sample.reused) ∧
      Along Sample.serde (Fresh Sample.serde) []
        (traffic Sample.serde Sample.reused) ∧
      (reports Sample.serde Sample.reused).map ElementUpdate.displacement? =
        [none, some 0, none, none, some 1] := by
  have tracked :
      Along Sample.serde (Tracked Sample.serde) []
        (traffic Sample.serde Sample.reused) := by
    decide +kernel
  have fresh :
      Along Sample.serde (Fresh Sample.serde) []
        (traffic Sample.serde Sample.reused) := by
    decide +kernel
  refine ⟨tracked, fresh, ?_⟩
  rw [(displacements_exact Sample.serde tracked fresh).1]
  decide +kernel

/-- The second copy of an id stays in the queue, and what is answered in order
after it is reported as out of order. -/
theorem resent_id_displaces :
    Along Sample.serde (Tracked Sample.serde) []
        (traffic Sample.serde Sample.resent) ∧
      Along Sample.serde (InOrder Sample.serde) []
        (traffic Sample.serde Sample.resent) ∧
      places Sample.serde [] (traffic Sample.serde Sample.resent) =
        [none, none, some 0, none, some 0] ∧
      (reports Sample.serde Sample.resent).map ElementUpdate.displacement? =
        [none, none, some 0, none, some 1] ∧
      (account Sample.serde Sample.resent).order = ⟨1, 1⟩ := by
  decide +kernel

end Bwk.Mitm
