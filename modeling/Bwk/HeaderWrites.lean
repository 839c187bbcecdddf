import Bwk.HeaderReplay
import Bwk.HeaderStore

namespace Bwk

/-!
# What a write can do to the stored chain

Every mutator changes the chain through a handful of elementary writes: start
a range at an anchor, extend it by a judged header, cut it, lower its floor by
a replayed range, or empty it.  This module states those writes once, as a
relation on chains, and shows that each mutator only makes them, also when it
fails halfway.  Invariants of the store are then closed under the relation and
never look at the mutators again.
-/

/-- What the writes of a store are judged by. -/
structure Rules (Raw : Type) where
  btc : Bitcoin Raw
  network : Network
  checkpoint : Option Checkpoint
  /-- Heights an empty store may be started at. -/
  anchors : Nat → Prop
  /-- Clock readings headers may be judged at. -/
  clocks : Nat → Prop

namespace Rules

variable {Raw : Type}

/-- The checkpoint does not forbid `raw` at `height`. -/
def Admits (rules : Rules Raw) (height : Nat) (raw : Raw) : Prop :=
  holdsCheckpoint rules.btc rules.checkpoint height raw = true

/-- `raw` may stand at `height` on top of what `chain` holds below. -/
def Judged
    (rules : Rules Raw)
    (chain : HeaderMap Raw)
    (height : Nat)
    (raw : Raw) : Prop :=
  ∃ header nowSecs,
    rules.btc.deserialize raw = some header ∧
    rules.clocks nowSecs ∧
    validateAppend rules.btc rules.network
      (decodeAncestors rules.btc chain height
        (retargetInterval rules.btc rules.network))
      height header nowSecs = .ok ()

/-- `raw` may be the lowest header of a chain, at `height`. -/
def Anchors (rules : Rules Raw) (height : Nat) (raw : Raw) : Prop :=
  rules.anchors height ∧
  height % retargetInterval rules.btc rules.network = 0 ∧
  ∃ header nowSecs,
    rules.btc.deserialize raw = some header ∧
    rules.clocks nowSecs ∧
    replayRow rules.btc rules.network nowSecs height [] height header =
      .ok ()

/-- Rows that may be stored one after the other on top of `chain`. -/
def JudgedRows (rules : Rules Raw) :
    HeaderMap Raw → List (Nat × Raw) → Prop
  | _, [] => True
  | chain, (height, raw) :: rest =>
      rules.Judged chain height raw ∧
        JudgedRows rules (chain.insert height raw) rest

end Rules

/-- The writes that leave the floor of a nonempty chain where it is. -/
inductive Grow (rules : Rules Raw) :
    HeaderMap Raw → HeaderMap Raw → Prop where
  | clear (chain : HeaderMap Raw) : Grow rules chain ∅
  | anchor
      {height : Nat}
      {raw : Raw}
      (anchored : rules.Anchors height raw)
      (admitted : rules.Admits height raw) :
      Grow rules ∅ ((∅ : HeaderMap Raw).insert height raw)
  | extend
      {chain : HeaderMap Raw}
      {low high : Nat}
      {raw : Raw}
      (covers : chain.Covers low high)
      (ordered : low ≤ high)
      (judged : rules.Judged chain (high + 1) raw)
      (admitted : rules.Admits (high + 1) raw) :
      Grow rules chain (chain.insert (high + 1) raw)
  | cut
      {chain : HeaderMap Raw}
      {low high forkHeight : Nat}
      (covers : chain.Covers low high)
      (above : low ≤ forkHeight)
      (below : forkHeight ≤ high) :
      Grow rules chain
        (chain.retain (fun height _ => height ≤ forkHeight))

structure Lower
    (rules : Rules Raw)
    (chain lowered : HeaderMap Raw)
    (low floor high : Nat)
    (range : HeaderMap Raw)
    (nowSecs : Nat) : Prop where
  covers : chain.Covers floor high
  ordered : floor ≤ high
  below : low ≤ floor
  boundary : low % retargetInterval rules.btc rules.network = 0
  rangeCovers : range.Covers low floor
  sameFloor : range[floor]? = chain[floor]?
  clock : rules.clocks nowSecs
  replays :
    replayValidate rules.btc rules.network range nowSecs = .ok ()
  admitted :
    ∀ height raw, height < floor → range[height]? = some raw →
      rules.Admits height raw
  rows :
    ∀ height : Nat,
      lowered[height]? =
        if height < floor then range[height]? else chain[height]?

def Write (rules : Rules Raw) (chain after : HeaderMap Raw) : Prop :=
  Grow rules chain after ∨
    ∃ low floor high range nowSecs,
      Lower rules chain after low floor high range nowSecs

/-- Any number of writes that keep the floor. -/
def Grows (rules : Rules Raw) : HeaderMap Raw → HeaderMap Raw → Prop :=
  Relation.ReflTransGen (Grow rules)

section Primitives

variable {Backend Raw : Type}

/-- The lock guards exactly this chain. -/
def Stores (chain : HeaderMap Raw) (inner : Inner Backend Raw) : Prop :=
  inner.chain = chain

theorem judge_holds
    {pre : Inner Backend Raw → Prop}
    (verdict : Except ValidatorError Unit) :
    Holds pre (judge verdict : Locked Backend Raw Unit)
      (fun _ inner => pre inner ∧ verdict = .ok ())
      (fun _ => pre) := by
  intro inner holds
  cases verdict with
  | ok value =>
      exact ⟨holds, rfl⟩
  | error reason =>
      exact holds

theorem decode_holds
    {pre : Inner Backend Raw → Prop}
    (btc : Bitcoin Raw)
    (raw : Raw) :
    Holds pre (decode btc raw : Locked Backend Raw Header)
      (fun header inner =>
        pre inner ∧ btc.deserialize raw = some header)
      (fun _ => pre) := by
  intro inner holds
  unfold decode
  cases decoded : btc.deserialize raw with
  | some header =>
      exact ⟨holds, rfl⟩
  | none =>
      exact holds

theorem addHeights_holds
    {pre : Inner Backend Raw → Prop}
    (left right : Nat) :
    Holds pre (addHeights left right : Locked Backend Raw Nat)
      (fun sum inner => pre inner ∧ sum = left + right)
      (fun _ => pre) := by
  unfold addHeights
  exact Holds.ite
    (fun _ => Holds.pure (fun _ holds => ⟨holds, rfl⟩))
    (fun _ => Holds.throw (fun _ holds => holds))

theorem insertRow_holds
    (chain : HeaderMap Raw)
    (height : Nat)
    (raw : Raw) :
    Holds (Stores chain) (insertRow height raw : Locked Backend Raw Unit)
      (fun _ => Stores (chain.insert height raw)) (fun _ _ => False) := by
  apply Holds.modify
  intro inner stores
  unfold Stores at stores
  subst stores
  rfl

theorem removeRows_holds
    (chain : HeaderMap Raw)
    (heights : List Nat) :
    Holds (Stores chain) (removeRows heights : Locked Backend Raw Unit)
      (fun _ => Stores (chain.eraseAll heights)) (fun _ _ => False) := by
  apply Holds.modify
  intro inner stores
  unfold Stores at stores
  subst stores
  exact RamStore.cache_removeAll inner.store heights

theorem setValidationState_holds
    {fail : Abort → Inner Backend Raw → Prop}
    (chain : HeaderMap Raw)
    (state : HeaderValidationState) :
    Holds (Stores chain)
      (setValidationState state : Locked Backend Raw Unit)
      (fun _ => Stores chain) fail :=
  Holds.modify (fun _ stores => stores)

variable [PersistenceBackend Backend Nat Raw]

theorem flushRows_keeps (property : HeaderMap Raw → Prop) :
    Keeps (fun inner => property inner.chain)
      (flushRows : Locked Backend Raw Unit) := by
  intro inner holds
  have kept : inner.store.flush.2.cache = inner.chain :=
    RamStore.cache_flush inner.store
  unfold flushRows
  rcases flushed : inner.store.flush with ⟨outcome, store⟩
  rw [flushed] at kept
  rw [← kept] at holds
  cases outcome with
  | ok value =>
      exact holds
  | error reason =>
      exact holds

theorem flushRows_holds (chain : HeaderMap Raw) :
    Holds (Stores chain) (flushRows : Locked Backend Raw Unit)
      (fun _ => Stores chain) (fun _ => Stores chain) :=
  flushRows_keeps (fun current => current = chain)

theorem clearInner_holds (chain : HeaderMap Raw) :
    Holds (Stores chain) (clearInner : Locked Backend Raw Unit)
      (fun _ => Stores ∅) (fun _ => Stores ∅) := by
  apply Holds.bindGet
  intro read stores
  have emptied : chain.eraseAll read.store.cache.keys = ∅ := by
    apply Std.ExtTreeMap.ext_getElem?
    intro height
    have sameChain : read.store.cache = chain := stores
    rw [BTreeMap.getElem?_eraseAll, sameChain]
    simp only [Std.ExtTreeMap.mem_keys, Std.ExtTreeMap.getElem?_empty,
      ite_eq_left_iff]
    exact BTreeMap.not_mem_iff_getElem?.mp
  have removed :
      Holds (Stores chain)
        (removeRows read.store.cache.keys : Locked Backend Raw Unit) _ _ :=
    removeRows_holds chain read.store.cache.keys
  rw [emptied] at removed
  exact Holds.move removed (fun _ _ impossible => impossible.elim)
    (fun _ => flushRows_holds ∅)

theorem holdCheckpoint_holds
    (btc : Bitcoin Raw)
    (checkpoint : Option Checkpoint)
    (chain : HeaderMap Raw)
    (height : Nat)
    (raw : Raw) :
    Holds (Stores chain)
      (holdCheckpoint btc checkpoint height raw : Locked Backend Raw Unit)
      (fun _ inner =>
        Stores chain inner ∧
          holdsCheckpoint btc checkpoint height raw = true)
      (fun _ inner =>
        Stores ∅ inner ∧
          holdsCheckpoint btc checkpoint height raw = false) := by
  unfold holdCheckpoint
  apply Holds.ite
  · intro held
    exact Holds.pure (fun _ stores => ⟨stores, held⟩)
  · intro refused
    have contradicts := Bool.eq_false_iff.mpr refused
    refine Holds.move (clearInner_holds chain)
      (fun _ _ stores => ⟨stores, contradicts⟩) ?_
    intro _
    apply Holds.bind (setValidationState_holds ∅ _)
    intro _
    exact Holds.throw (fun _ stores => ⟨stores, contradicts⟩)

/-- Rows judged elsewhere go in together, or the chain is refused whole. -/
theorem insertHeld_holds
    (btc : Bitcoin Raw)
    (checkpoint : Option Checkpoint)
    (chain : HeaderMap Raw)
    (rows : List (Nat × Raw)) :
    Holds (Stores chain)
      (insertHeld btc checkpoint rows : Locked Backend Raw Unit)
      (fun _ inner =>
        Stores (chain.insertAll rows) inner ∧
          ∀ row ∈ rows,
            holdsCheckpoint btc checkpoint row.1 row.2 = true)
      (fun _ inner =>
        Stores ∅ inner ∧
          ∃ row ∈ rows,
            holdsCheckpoint btc checkpoint row.1 row.2 = false) := by
  induction rows generalizing chain with
  | nil =>
      exact Holds.pure (fun _ stores => ⟨stores, by simp⟩)
  | cons row rest inductionHypothesis =>
      refine Holds.step
        (holdCheckpoint_holds btc checkpoint chain row.1 row.2)
        (fun _ _ refused => ⟨refused.1, row, by simp, refused.2⟩) ?_
      intro _ held
      refine Holds.move
        (insertRow_holds chain row.1 row.2)
        (fun _ _ impossible => impossible.elim) ?_
      intro _
      refine Holds.conseq (inductionHypothesis (chain.insert row.1 row.2))
        (fun _ stores => stores) ?_ ?_
      · rintro _ inner ⟨stores, restHeld⟩
        refine ⟨stores, ?_⟩
        intro other member
        rcases List.mem_cons.mp member with isHead | inRest
        · rw [isHead]
          exact held
        · exact restHeld other inRest
      · rintro _ inner ⟨stores, other, member, refused⟩
        exact ⟨stores, other, by simp [member], refused⟩

end Primitives

section Mutators

variable {Backend Raw : Type} [PersistenceBackend Backend Nat Raw]
variable {rules : Rules Raw}

/-- A judged header went in at `height`. -/
structure Appended
    (rules : Rules Raw)
    (chain : HeaderMap Raw)
    (height : Nat)
    (raw : Raw)
    (after : HeaderMap Raw) : Prop where
  judged : rules.Judged chain height raw
  admitted : rules.Admits height raw
  shape : after = chain.insert height raw

/-- `append` stores one judged header, or nothing, or refuses the chain. -/
theorem appendLocked_holds
    (rules : Rules Raw)
    (chain : HeaderMap Raw)
    {height nowSecs : Nat}
    {raw : Raw}
    {incoming : Header}
    (clock : rules.clocks nowSecs)
    (decoded : rules.btc.deserialize raw = some incoming) :
    Holds (Stores chain)
      (appendLocked rules.btc rules.network rules.checkpoint height raw
        incoming nowSecs : Locked Backend Raw Unit)
      (fun _ inner => Appended rules chain height raw inner.chain)
      (fun _ inner =>
        Stores chain inner ∨ Stores ∅ inner ∨
          Appended rules chain height raw inner.chain) := by
  apply Holds.bindGet
  intro read stores
  refine Holds.step (judge_holds _) (fun _ _ same => .inl same) ?_
  intro _ accepted
  refine Holds.step
    (holdCheckpoint_holds rules.btc rules.checkpoint chain height raw)
    (fun _ _ refused => .inr (.inl refused.1)) ?_
  intro _ admitted
  have appended :
      ∀ inner : Inner Backend Raw,
        Stores (chain.insert height raw) inner →
          Appended rules chain height raw inner.chain := by
    intro inner same
    refine ⟨⟨incoming, nowSecs, decoded, clock, ?_⟩, admitted, same⟩
    have readChain : read.store.cache = chain := stores
    rw [decodeAncestors, ← readChain]
    exact accepted
  apply Holds.bindGet
  intro before _
  refine Holds.move
    (insertRow_holds chain height raw)
    (fun _ _ impossible => impossible.elim) ?_
  intro _
  refine Holds.move (flushRows_holds (chain.insert height raw))
    (fun _ inner same => .inr (.inr (appended inner same))) ?_
  intro _
  apply Holds.bindGet
  intro after _
  exact Holds.modify (fun _ stored => appended _ stored)

/--
Where the next header of a run goes: above the range, or at an allowed anchor
of an empty store.
-/
def Continues
    (rules : Rules Raw)
    (chain : HeaderMap Raw)
    (start : Nat) : Prop :=
  (chain = ∅ ∧ rules.anchors start) ∨
    ∃ low high, low ≤ high ∧ chain.Covers low high ∧ start = high + 1

theorem appendRows_holds
    {now : Nat → Nat}
    (wasEmpty : Bool)
    (start index : Nat)
    (raws : List Raw)
    {low high : Nat}
    {chain : HeaderMap Raw}
    (clock : ∀ reading, rules.clocks (now reading))
    (pastAnchor : ¬ (wasEmpty ∧ index = 0))
    (covers : chain.Covers low high)
    (ordered : low ≤ high)
    (next : start + index = high + 1) :
    Holds (Stores chain)
      (appendRows rules.btc rules.network rules.checkpoint now wasEmpty
        start index
        (decodeAncestors rules.btc chain (start + index)
          (retargetInterval rules.btc rules.network))
        raws : Locked Backend Raw Unit)
      (fun _ inner =>
        Grows rules chain inner.chain ∧
          inner.chain.Covers low (high + raws.length))
      (fun _ inner => Grows rules chain inner.chain) := by
  induction raws generalizing index high chain with
  | nil =>
      apply Holds.pure
      rintro inner same
      rw [Stores] at same
      rw [same]
      exact ⟨.refl, covers⟩
  | cons raw rest inductionHypothesis =>
      have untouched :
          ∀ inner : Inner Backend Raw, Stores chain inner →
            Grows rules chain inner.chain := by
        intro inner same
        rw [Stores] at same
        rw [same]
        exact .refl
      have cleared :
          ∀ inner : Inner Backend Raw, Stores ∅ inner →
            Grows rules chain inner.chain := by
        intro inner same
        rw [Stores] at same
        rw [same]
        exact .single (.clear chain)
      refine Holds.step (addHeights_holds start index)
        (fun _ inner same => untouched inner same) ?_
      rintro height rfl
      refine Holds.step (decode_holds rules.btc raw)
        (fun _ inner same => untouched inner same) ?_
      intro header decoded
      have notAnchor :
          ¬ (wasEmpty = true ∧ index = 0 ∧ start + index > 0) :=
        fun anchored => pastAnchor ⟨anchored.1, anchored.2.1⟩
      simp only [notAnchor, ↓reduceIte]
      refine Holds.step (judge_holds _)
        (fun _ inner same => untouched inner same) ?_
      intro _ accepted
      have judged : rules.Judged chain (high + 1) raw := by
        rw [← next]
        exact ⟨header, now index, decoded, clock index, accepted⟩
      refine Holds.step
        (holdCheckpoint_holds rules.btc rules.checkpoint chain
          (start + index) raw)
        (fun _ inner refused => cleared inner refused.1) ?_
      intro _ held
      have grown : Grow rules chain (chain.insert (start + index) raw) := by
        rw [next] at held ⊢
        exact .extend covers ordered judged held
      have wider :
          BTreeMap.Covers (chain.insert (start + index) raw) low
            (high + 1) := by
        rw [next]
        exact covers.insertAbove ordered raw
      refine Holds.move
        (insertRow_holds chain
          (start + index) raw)
        (fun _ _ impossible => impossible.elim) ?_
      intro _
      have rest := inductionHypothesis (index + 1) (by omega) wider (by omega) (by omega)
      rw [← Nat.add_assoc,
        decodeAncestors_insert rules.btc chain
          (retargetInterval_pos rules.btc rules.network) decoded] at rest
      refine Holds.conseq rest (fun _ same => same) ?_ ?_
      · rintro _ inner ⟨grows, covered⟩
        refine ⟨.head grown grows, ?_⟩
        rw [List.length_cons]
        convert covered using 1
        omega
      · intro _ inner grows
        exact .head grown grows

private theorem anchors_of_verdict
    {start nowSecs : Nat}
    {raw : Raw}
    {header : Header}
    (allowed : rules.anchors start)
    (clock : rules.clocks nowSecs)
    (decoded : rules.btc.deserialize raw = some header)
    (boundary :
      start % retargetInterval rules.btc rules.network = 0)
    (accepted :
      if start > 0 then
        checkPow rules.btc (Params.new rules.btc rules.network) header =
          .ok ()
      else
        validateAppend rules.btc rules.network [] start header nowSecs =
          .ok ()) :
    rules.Anchors start raw := by
  refine ⟨allowed, boundary, header, nowSecs, decoded, clock, ?_⟩
  unfold replayRow
  by_cases atZero : start = 0
  · simpa [atZero] using accepted
  · have positive : start > 0 := by omega
    simpa [atZero, positive] using accepted

private theorem appendRows_empty_holds
    {now : Nat → Nat}
    {start : Nat}
    {raw : Raw}
    {rest : List Raw}
    (clock : ∀ reading, rules.clocks (now reading))
    (allowed : rules.anchors start) :
    Holds (Stores (∅ : HeaderMap Raw))
      (appendRows rules.btc rules.network rules.checkpoint now true start 0
        [] (raw :: rest) : Locked Backend Raw Unit)
      (fun _ inner =>
        Grows rules ∅ inner.chain ∧
          inner.chain.Covers start (start + rest.length))
      (fun _ inner => Grows rules ∅ inner.chain) := by
  have untouched :
      ∀ inner : Inner Backend Raw, Stores ∅ inner →
        Grows rules ∅ inner.chain := by
    intro inner same
    rw [Stores] at same
    rw [same]
    exact .refl
  refine Holds.step (addHeights_holds start 0)
    (fun _ inner same => untouched inner same) ?_
  intro height isStart
  rw [Nat.add_zero] at isStart
  subst height
  refine Holds.step (decode_holds rules.btc raw)
    (fun _ inner same => untouched inner same) ?_
  intro header decoded
  -- Both verdicts on the first header are what an anchor is judged by.
  suffices afterVerdict :
      rules.Anchors start raw →
      Holds (Stores (∅ : HeaderMap Raw))
        (do
          holdCheckpoint rules.btc rules.checkpoint start raw
          insertRow start raw
          appendRows rules.btc rules.network rules.checkpoint now true start
            1
            (slideWindow (retargetInterval rules.btc rules.network) []
              header) rest : Locked Backend Raw Unit)
        (fun _ inner =>
          Grows rules ∅ inner.chain ∧
            inner.chain.Covers start (start + rest.length))
        (fun _ inner => Grows rules ∅ inner.chain) by
    by_cases positive : start > 0
    · simp only [positive, and_self, ↓reduceIte]
      by_cases boundary :
          start % retargetInterval rules.btc rules.network = 0
      · simp only [boundary, ne_eq, not_true_eq_false, ↓reduceIte,
          pure_bind]
        refine Holds.step (judge_holds _)
          (fun _ inner same => untouched inner same) ?_
        intro _ accepted
        exact afterVerdict
          (anchors_of_verdict allowed (clock 0) decoded boundary
            (by simpa [positive] using accepted))
      · simp only [boundary, ne_eq, not_false_eq_true, ↓reduceIte]
        exact Holds.through (fun _ _ => False)
          (Holds.throw (fun inner same => untouched inner same))
          (fun _ _ impossible => impossible.elim)
    · simp only [positive, and_false, ↓reduceIte]
      refine Holds.step (judge_holds _)
        (fun _ inner same => untouched inner same) ?_
      intro _ accepted
      have atZero : start = 0 := by omega
      exact afterVerdict
        (anchors_of_verdict allowed (clock 0) decoded (by simp [atZero])
          (by simpa [positive] using accepted))
  intro anchored
  refine Holds.step
    (holdCheckpoint_holds rules.btc rules.checkpoint ∅ start raw)
    (fun _ inner refused => untouched inner refused.1) ?_
  intro _ held
  have grown :
      Grow rules ∅ ((∅ : HeaderMap Raw).insert start raw) :=
    .anchor anchored held
  refine Holds.move
    (insertRow_holds ∅ start raw)
    (fun _ _ impossible => impossible.elim) ?_
  intro _
  have later :=
    @appendRows_holds Backend Raw _ rules now true start 1 rest _ _ _ clock
      (by simp) (BTreeMap.covers_singleton start raw) (Nat.le_refl start)
      rfl
  rw [decodeAncestors_insert rules.btc ∅
      (retargetInterval_pos rules.btc rules.network) decoded,
    decodeAncestors_of_gap rules.btc start (by simp)] at later
  refine Holds.conseq later (fun _ same => same) ?_ ?_
  · rintro _ inner ⟨grows, covered⟩
    exact ⟨.head grown grows, covered⟩
  · intro _ inner grows
    exact .head grown grows

theorem appendBatchLocked_holds
    (rules : Rules Raw)
    {now : Nat → Nat}
    {start : Nat}
    {chain : HeaderMap Raw}
    {raws : List Raw}
    (clock : ∀ reading, rules.clocks (now reading))
    (continues : Continues rules chain start)
    (nonempty : raws ≠ []) :
    Holds (Stores chain)
      (appendBatchLocked rules.btc rules.network rules.checkpoint now start
        raws : Locked Backend Raw Unit)
      (fun _ inner =>
        Grows rules chain inner.chain ∧
          Continues rules inner.chain (start + raws.length))
      (fun _ inner => Grows rules chain inner.chain) := by
  apply Holds.bindGet
  intro read stores
  have readChain : read.store.cache = chain := stores
  refine Holds.through
    (fun _ inner =>
      Grows rules chain inner.chain ∧
        Continues rules inner.chain (start + raws.length)) ?_ ?_
  · rcases continues with ⟨empty, allowed⟩ | ⟨low, high, ordered, covers, next⟩
    · obtain ⟨raw, rest, rfl⟩ := List.exists_cons_of_ne_nil nonempty
      subst empty
      have isEmpty : read.store.cache.isEmpty = true := by
        rw [readChain]
        rfl
      simp only [isEmpty, ↓reduceIte]
      refine Holds.conseq (appendRows_empty_holds clock allowed)
        (fun _ same => same) ?_ (fun _ _ grows => grows)
      rintro _ inner ⟨grows, covered⟩
      refine ⟨grows, .inr ⟨start, start + rest.length, by omega, covered,
        ?_⟩⟩
      simp only [List.length_cons]
      omega
    · have isEmpty : read.store.cache.isEmpty = false := by
        rw [readChain, Std.ExtTreeMap.isEmpty_eq_false_iff]
        exact covers.ne_empty ordered
      simp only [isEmpty, Bool.false_eq_true, ↓reduceIte]
      have extended :=
        @appendRows_holds Backend Raw _ rules now false start 0 raws _ _ _
          clock (by simp) covers ordered next
      rw [Nat.add_zero, decodeAncestors, ← readChain] at extended
      refine Holds.conseq extended
        (fun _ same => same.trans readChain.symm) ?_ ?_
      · rintro _ inner ⟨grows, covered⟩
        rw [readChain] at grows
        exact ⟨grows, .inr ⟨low, high + raws.length, by omega, covered,
          by omega⟩⟩
      · intro _ inner grows
        rw [readChain] at grows
        exact grows
  · intro _
    refine Holds.bind
      (Holds.conseq
        (flushRows_keeps (fun current =>
          Grows rules chain current ∧
            Continues rules current (start + raws.length)))
        (fun _ reached => reached) (fun _ _ reached => reached)
        (fun _ _ reached => reached.1)) ?_
    intro _
    exact Holds.modify (fun _ reached => reached)

private theorem validateRows_ok
    {nowSecs : Nat}
    {buffer combined : HeaderMap Raw}
    {heights : List Nat}
    {branch result : HeaderBranch Raw}
    (clock : rules.clocks nowSecs)
    (accepted :
      HeaderBranch.validateRows rules.btc rules.network nowSecs buffer
        heights combined branch = .ok result) :
    ∃ raws work,
      raws.length = heights.length ∧
      result.headers = branch.headers.insertAll (heights.zip raws) ∧
      rules.JudgedRows combined (heights.zip raws) ∧
      HeaderBranch.sumWork rules.btc raws = .ok work ∧
      result.chainwork = branch.chainwork + work := by
  induction heights generalizing combined branch with
  | nil =>
      simp only [HeaderBranch.validateRows, Except.ok.injEq] at accepted
      subst accepted
      exact ⟨[], 0, rfl, rfl, trivial, rfl, rfl⟩
  | cons height rest inductionHypothesis =>
      unfold HeaderBranch.validateRows at accepted
      split at accepted
      · cases accepted
      · rename_i raw fetched
        split at accepted
        · cases accepted
        · rename_i header decoded
          rcases verdict :
              validateAppend rules.btc rules.network
                (decodeAncestors rules.btc combined height
                  (retargetInterval rules.btc rules.network))
                height header nowSecs with reason | value
          · rw [verdict] at accepted
            cases accepted
          · rw [verdict] at accepted
            obtain ⟨raws, work, sameLength, headers, judged, summed,
              total⟩ := inductionHypothesis accepted
            refine ⟨raw :: raws, rules.btc.work header + work, ?_, ?_, ?_,
              ?_, ?_⟩
            · simp [sameLength]
            · rw [headers]
              rfl
            · exact ⟨⟨header, nowSecs, decoded, clock, verdict⟩, judged⟩
            · simp [HeaderBranch.sumWork, decoded, summed, bind,
                Except.bind]
            · rw [total]
              exact Nat.add_assoc _ _ _

def runRows (first : Nat) (raws : List Raw) : List (Nat × Raw) :=
  (List.range' first raws.length).zip raws

theorem runRows_sorted (first : Nat) (raws : List Raw) :
    (runRows first raws).Pairwise
      (fun earlier later => earlier.1 < later.1) := by
  have heights :
      (runRows first raws).map Prod.fst =
        List.range' first raws.length :=
    List.map_fst_zip (by simp)
  have increasing : (List.range' first raws.length).Pairwise (· < ·) :=
    List.pairwise_lt_range'
  rw [← heights, List.pairwise_map] at increasing
  exact increasing

theorem validate_ok
    (rules : Rules Raw)
    {active buffer : HeaderMap Raw}
    {forkHeight incomingHeight nowSecs : Nat}
    {branch : HeaderBranch Raw}
    (clock : rules.clocks nowSecs)
    (inRange : forkHeight < u32Max)
    (accepted :
      HeaderBranch.validate rules.btc rules.network active forkHeight
        incomingHeight buffer nowSecs = .ok branch) :
    ∃ raws,
      raws.length = incomingHeight - forkHeight ∧
      branch.headers.toList = runRows (forkHeight + 1) raws ∧
      rules.JudgedRows
        (active.retain (fun height _ => height ≤ forkHeight))
        (runRows (forkHeight + 1) raws) ∧
      HeaderBranch.sumWork rules.btc raws = .ok branch.chainwork := by
  have first : saturatingSucc forkHeight = forkHeight + 1 := by
    simp only [saturatingSucc]
    omega
  simp only [HeaderBranch.validate, first] at accepted
  obtain ⟨raws, work, sameLength, headers, judged, summed, total⟩ :=
    validateRows_ok clock accepted
  rw [List.length_range'] at sameLength
  have counted : raws.length = incomingHeight - forkHeight := by omega
  have rows :
      (List.range' (forkHeight + 1)
          (incomingHeight + 1 - (forkHeight + 1))).zip raws =
        runRows (forkHeight + 1) raws := by
    rw [runRows, sameLength]
  rw [rows] at headers judged
  refine ⟨raws, counted, ?_, judged, ?_⟩
  · rw [headers]
    exact BTreeMap.toList_insertAll_of_sorted (runRows_sorted _ _)
  · rw [summed, total]
    simp

theorem grows_runRows
    {low high : Nat}
    {chain : HeaderMap Raw}
    {raws : List Raw}
    (covers : chain.Covers low high)
    (ordered : low ≤ high)
    (judged : rules.JudgedRows chain (runRows (high + 1) raws))
    (admitted :
      ∀ row ∈ runRows (high + 1) raws, rules.Admits row.1 row.2) :
    Grows rules chain (chain.insertAll (runRows (high + 1) raws)) ∧
      (chain.insertAll (runRows (high + 1) raws)).Covers low
        (high + raws.length) := by
  induction raws generalizing chain high with
  | nil =>
      exact ⟨.refl, covers⟩
  | cons raw rest inductionHypothesis =>
      have rows :
          runRows (high + 1) (raw :: rest) =
            (high + 1, raw) :: runRows (high + 1 + 1) rest := by
        rw [runRows, List.length_cons, List.range'_succ, List.zip_cons_cons,
          runRows]
      rw [rows] at judged admitted ⊢
      have grown : Grow rules chain (chain.insert (high + 1) raw) :=
        .extend covers ordered judged.1
          (admitted (high + 1, raw) (by simp))
      obtain ⟨grows, wider⟩ :=
        inductionHypothesis (covers.insertAbove ordered raw) (by omega)
          judged.2 (fun row member => admitted row (by simp [member]))
      refine ⟨.head grown grows, ?_⟩
      have counted : high + (raw :: rest).length = high + 1 + rest.length := by
        simp only [List.length_cons]
        omega
      rw [counted]
      exact wider

/-- What `replace_branch` leaves when no row contradicts the checkpoint. -/
def replaced
    (chain : HeaderMap Raw)
    (forkHeight : Nat)
    (branch : HeaderMap Raw) : HeaderMap Raw :=
  (chain.retain (fun height _ => height ≤ forkHeight)).insertAll
    branch.toList

private theorem eraseAll_above
    (chain : HeaderMap Raw)
    (forkHeight : Nat) :
    chain.eraseAll (chain.keys.filter (fun key => key > forkHeight)) =
      chain.retain (fun height _ => height ≤ forkHeight) := by
  apply Std.ExtTreeMap.ext_getElem?
  intro height
  rw [BTreeMap.getElem?_eraseAll, BTreeMap.getElem?_retain]
  simp only [List.mem_filter, Std.ExtTreeMap.mem_keys, decide_eq_true_eq]
  cases present : chain[height]? with
  | none =>
      simp
  | some raw =>
      have member : height ∈ chain :=
        BTreeMap.mem_iff_getElem?.mpr ⟨raw, present⟩
      by_cases above : height > forkHeight
      · simp [member, above, Option.filter]
      · simp [above, Nat.le_of_not_lt above, Option.filter]

theorem replaceBranchLocked_holds
    (btc : Bitcoin Raw)
    (checkpoint : Option Checkpoint)
    (chain : HeaderMap Raw)
    (forkHeight : Nat)
    (branch : HeaderMap Raw) :
    let switched : Inner Backend Raw → Prop := fun inner =>
      Stores (replaced chain forkHeight branch) inner ∧
        ∀ row ∈ branch.toList,
          holdsCheckpoint btc checkpoint row.1 row.2 = true
    Holds (Stores chain)
      (replaceBranchLocked btc checkpoint forkHeight branch :
        Locked Backend Raw Unit)
      (fun _ => switched)
      (fun _ inner =>
        switched inner ∨
          Stores ∅ inner ∧
            ∃ row ∈ branch.toList,
              holdsCheckpoint btc checkpoint row.1 row.2 = false) := by
  intro switched
  apply Holds.bindGet
  intro read stores
  have readChain : read.store.cache = chain := stores
  rw [readChain]
  have removed :
      Holds (Stores chain)
        (removeRows (chain.keys.filter (fun key => key > forkHeight)) :
          Locked Backend Raw Unit) _ _ :=
    removeRows_holds chain _
  rw [eraseAll_above] at removed
  refine Holds.move removed (fun _ _ impossible => impossible.elim) ?_
  intro _
  refine Holds.move
    (insertHeld_holds btc checkpoint _ branch.toList)
    (fun _ _ refused => .inr refused) ?_
  intro _
  refine Holds.move
    (flushRows_keeps (fun current =>
      current = replaced chain forkHeight branch ∧
        ∀ row ∈ branch.toList,
          holdsCheckpoint btc checkpoint row.1 row.2 = true))
    (fun _ _ reached => .inl reached) ?_
  intro _
  exact Holds.modify (fun _ reached => reached)

theorem grows_replaced
    (rules : Rules Raw)
    {low high forkHeight : Nat}
    {chain branch : HeaderMap Raw}
    {raws : List Raw}
    (covers : chain.Covers low high)
    (above : low ≤ forkHeight)
    (below : forkHeight ≤ high)
    (rows : branch.toList = runRows (forkHeight + 1) raws)
    (judged :
      rules.JudgedRows
        (chain.retain (fun height _ => height ≤ forkHeight))
        (runRows (forkHeight + 1) raws))
    (admitted : ∀ row ∈ branch.toList, rules.Admits row.1 row.2) :
    Grows rules chain (replaced chain forkHeight branch) ∧
      (replaced chain forkHeight branch).Covers low
        (forkHeight + raws.length) := by
  rw [rows] at admitted
  obtain ⟨grows, wider⟩ :=
    grows_runRows (covers.retainBelow below) above judged admitted
  rw [replaced, rows]
  exact ⟨.head (.cut covers above below) grows, wider⟩

theorem prependRange_covers
    (low : Nat)
    (raws : List Raw)
    (floorRaw : Raw) :
    (prependRange low (low + raws.length) raws floorRaw).Covers low
      (low + raws.length) := by
  intro height
  have heights :
      (runRows low raws).map Prod.fst = List.range' low raws.length :=
    List.map_fst_zip (by simp)
  have stored :
      height ∈ (∅ : HeaderMap Raw).insertAll (runRows low raws) ↔
        height ∈ List.range' low raws.length := by
    rw [BTreeMap.mem_iff_getElem?, ← heights]
    constructor
    · rintro ⟨raw, present⟩
      rcases (BTreeMap.getElem?_insertAll_of_nodup ∅
          (by rw [heights]; exact List.nodup_range') height raw).mp
          present with inRun | ⟨-, absent⟩
      · exact List.mem_map.mpr ⟨_, inRun, rfl⟩
      · simp at absent
    · intro member
      obtain ⟨row, inRun, rfl⟩ := List.mem_map.mp member
      exact ⟨row.2, (BTreeMap.getElem?_insertAll_of_nodup ∅
        (by rw [heights]; exact List.nodup_range') row.1 row.2).mpr
        (.inl inRun)⟩
  rw [prependRange, Std.ExtTreeMap.mem_insert, Nat.compare_eq_eq,
    show (List.range' low raws.length).zip raws = runRows low raws from rfl,
    stored, List.mem_range'_1]
  omega

theorem prependLocked_holds
    (rules : Rules Raw)
    {chain : HeaderMap Raw}
    {low high nowSecs : Nat}
    {raws : List Raw}
    (clock : rules.clocks nowSecs)
    (covers : chain.Covers (low + raws.length) high)
    (ordered : low + raws.length ≤ high)
    (boundary : low % retargetInterval rules.btc rules.network = 0) :
    let lowered : Inner Backend Raw → Prop := fun inner =>
      ∃ floorRaw,
        Lower rules chain inner.chain low (low + raws.length) high
          (prependRange low (low + raws.length) raws floorRaw) nowSecs
    Holds (Stores chain)
      (prependLocked rules.btc rules.network rules.checkpoint nowSecs low
        (low + raws.length) raws : Locked Backend Raw Unit)
      (fun _ => lowered)
      (fun _ inner => Stores chain inner ∨ Stores ∅ inner ∨ lowered inner) := by
  intro lowered
  apply Holds.bindGet
  intro read stores
  have readChain : read.store.cache = chain := stores
  obtain ⟨floorRaw, floorPresent⟩ :=
    BTreeMap.mem_iff_getElem?.mp
      ((covers (low + raws.length)).mpr ⟨Nat.le_refl _, ordered⟩)
  have found : read.store.get (low + raws.length) = some floorRaw := by
    rw [RamStore.get, readChain]
    exact floorPresent
  rw [found]
  have rangeCovers := prependRange_covers low raws floorRaw
  refine Holds.step (judge_holds _) (fun _ _ same => .inl same) ?_
  intro _ replays
  refine Holds.through (fun _ => lowered) ?_ ?_
  · refine Holds.conseq
      (insertHeld_holds rules.btc rules.checkpoint chain _)
      (fun _ same => same) ?_ (fun _ _ refused => .inr (.inl refused.1))
    rintro _ inner ⟨stored, held⟩
    have inRange :
        ∀ row,
          row ∈ (prependRange low (low + raws.length) raws
              floorRaw).toList.filter
              (fun row => row.1 < low + raws.length) ↔
            (prependRange low (low + raws.length) raws floorRaw)[row.1]? =
                some row.2 ∧
              row.1 < low + raws.length := by
      intro row
      rw [List.mem_filter, ← Prod.mk.eta (p := row),
        Std.ExtTreeMap.mem_toList_iff_getElem?_eq_some]
      simp
    refine ⟨floorRaw, covers, ordered, by omega, boundary, rangeCovers, ?_,
      clock, replays, ?_, ?_⟩
    · rw [floorPresent, prependRange]
      simp
    · intro height raw under present
      exact held (height, raw) ((inRange (height, raw)).mpr
        ⟨present, under⟩)
    · intro height
      rw [Stores] at stored
      rw [stored, BTreeMap.getElem?_insertAll_of_source chain
        (fun row member => ((inRange row).mp member).1)]
      by_cases under : height < low + raws.length
      · rw [if_pos under]
        split
        · rfl
        · rename_i unlisted
          -- Below the floor the chain holds nothing, and neither does the
          -- range at a height it does not list.
          have absent : chain[height]? = none := by
            apply BTreeMap.not_mem_iff_getElem?.mp
            rw [covers height]
            omega
          rw [absent]
          symm
          apply Option.eq_none_iff_forall_not_mem.mpr
          intro raw present
          exact unlisted (List.mem_map.mpr
            ⟨(height, raw), (inRange (height, raw)).mpr
              ⟨present, under⟩, rfl⟩)
      · rw [if_neg under, if_neg]
        intro listed
        obtain ⟨row, member, rfl⟩ := List.mem_map.mp listed
        exact under ((inRange row).mp member).2
  · intro _
    exact Holds.conseq
      (flushRows_keeps (fun current =>
        ∃ floorRaw,
          Lower rules chain current low (low + raws.length) high
            (prependRange low (low + raws.length) raws floorRaw) nowSecs))
      (fun _ reached => reached) (fun _ _ reached => reached)
      (fun _ _ reached => .inr (.inr reached))

end Mutators

end Bwk
