import Bwk.HeaderInvariant

namespace Bwk

/-!
# The checkpoint

A store bound to a checkpoint never holds another block at its height, and an
operation that would store one refuses the whole chain instead.  "Would store
one" is said without naming the check: the same operation on the same store
with the checkpoint taken out leaves another block there.
-/

section Stability

variable {Backend Raw : Type} [PersistenceBackend Backend Nat Raw]
variable {rules : Rules Raw} {locked : Inner Backend Raw → Prop}

/--
A property kept by every step the mutators are made of is kept by the mutators.
Only rows that passed the checkpoint guard are inserted.
-/
theorem Stable.of_steps
    (remove : ∀ heights, Keeps locked (removeRows heights))
    (flush : Keeps locked flushRows)
    (state : ∀ value, Keeps locked (setValidationState value))
    (insert :
      ∀ height raw, rules.Admits height raw →
        Keeps locked (insertRow height raw)) :
    Stable rules locked := by
  have clear : Keeps locked (clearInner : Locked Backend Raw Unit) :=
    Keeps.bind Keeps.get (fun _ =>
      Keeps.bind (remove _) (fun _ => flush))
  have judged : ∀ verdict, Keeps locked (judge verdict) :=
    fun verdict => Holds.conseq (judge_holds verdict) (fun _ kept => kept)
      (fun _ _ reached => reached.1) (fun _ _ kept => kept)
  have hold :
      ∀ height raw,
        Holds locked
          (holdCheckpoint rules.btc rules.checkpoint height raw)
          (fun _ inner => locked inner ∧ rules.Admits height raw)
          (fun _ => locked) := by
    intro height raw
    unfold holdCheckpoint
    apply Holds.ite
    · intro held
      exact Holds.pure (fun _ kept => ⟨kept, held⟩)
    · intro _
      refine Holds.bind clear (fun _ => ?_)
      exact Holds.bind (state _) (fun _ => Holds.throw (fun _ kept => kept))
  have insertHeldKeeps :
      ∀ rows,
        Keeps locked (insertHeld rules.btc rules.checkpoint rows) := by
    intro rows
    induction rows with
    | nil =>
        exact Keeps.pure
    | cons row rest inductionHypothesis =>
        refine Holds.step (hold row.1 row.2) (fun _ _ kept => kept) ?_
        intro _ admitted
        exact Keeps.bind (insert row.1 row.2 admitted)
          (fun _ => inductionHypothesis)
  have appendRowsKeeps :
      ∀ now wasEmpty start index ancestors raws,
        Keeps locked
          (appendRows rules.btc rules.network rules.checkpoint now wasEmpty
            start index ancestors raws) := by
    intro now wasEmpty start index ancestors raws
    induction raws generalizing index ancestors with
    | nil =>
        exact Keeps.pure
    | cons raw rest inductionHypothesis =>
        refine Holds.step (addHeights_holds start index)
          (fun _ _ kept => kept) ?_
        intro height _
        refine Holds.step (decode_holds rules.btc raw)
          (fun _ _ kept => kept) ?_
        intro header _
        have stored :
            Keeps locked
              (do
                holdCheckpoint rules.btc rules.checkpoint height raw
                insertRow height raw
                appendRows rules.btc rules.network rules.checkpoint now
                  wasEmpty start (index + 1)
                  (slideWindow (retargetInterval rules.btc rules.network)
                    ancestors header) rest : Locked Backend Raw Unit) := by
          refine Holds.step (hold height raw) (fun _ _ kept => kept) ?_
          intro _ admitted
          exact Keeps.bind (insert height raw admitted)
            (fun _ => inductionHypothesis _ _)
        refine Holds.ite (fun _ => ?_)
          (fun _ => Keeps.bind (judged _) (fun _ => stored))
        refine Holds.ite (fun _ => ?_)
          (fun _ => Keeps.bind (judged _) (fun _ => stored))
        exact Keeps.bind Keeps.throw
          (fun _ => Keeps.bind (judged _) (fun _ => stored))
  refine ⟨clear, ?_, ?_, ?_, ?_⟩
  · intro height raw incoming nowSecs
    refine Keeps.bind Keeps.get (fun _ => ?_)
    refine Keeps.bind (judged _) (fun _ => ?_)
    refine Holds.step (hold height raw) (fun _ _ kept => kept) ?_
    intro _ admitted
    refine Keeps.bind Keeps.get (fun _ => ?_)
    refine Keeps.bind (insert height raw admitted) (fun _ => ?_)
    refine Keeps.bind flush (fun _ => ?_)
    exact Keeps.bind Keeps.get (fun _ => state _)
  · intro now start raws
    refine Keeps.bind Keeps.get (fun _ => ?_)
    refine Keeps.bind (appendRowsKeeps _ _ _ _ _ _) (fun _ => ?_)
    exact Keeps.bind flush (fun _ => state _)
  · intro forkHeight branch
    refine Keeps.bind Keeps.get (fun _ => ?_)
    refine Keeps.bind (remove _) (fun _ => ?_)
    refine Keeps.bind (insertHeldKeeps _) (fun _ => ?_)
    exact Keeps.bind flush (fun _ => state _)
  · intro nowSecs low floor raws
    refine Keeps.bind Keeps.get (fun read => ?_)
    cases read.store.get floor with
    | none =>
        exact Keeps.throw
    | some floorRaw =>
        refine Keeps.bind (judged _) (fun _ => ?_)
        exact Keeps.bind (insertHeldKeeps _) (fun _ => flush)

end Stability

/-- No stored row contradicts the checkpoint. -/
def HoldsThroughout
    (btc : Bitcoin Raw)
    (checkpoint : Option Checkpoint)
    (chain : HeaderMap Raw) : Prop :=
  ∀ (height : Nat) raw, chain[height]? = some raw →
    holdsCheckpoint btc checkpoint height raw = true

theorem stable_holdsThroughout
    {Backend Raw : Type}
    [PersistenceBackend Backend Nat Raw]
    (rules : Rules Raw) :
    Stable rules (fun inner : Inner Backend Raw =>
      HoldsThroughout rules.btc rules.checkpoint inner.chain) := by
  apply Stable.of_steps
  · intro heights
    apply Holds.modify
    intro inner holds height raw present
    have shape :
        ({ inner with store := inner.store.removeAll heights } :
          Inner Backend Raw).chain = inner.chain.eraseAll heights :=
      RamStore.cache_removeAll inner.store heights
    rw [shape, BTreeMap.getElem?_eraseAll] at present
    split at present
    · cases present
    · exact holds height raw present
  · exact flushRows_keeps (HoldsThroughout rules.btc rules.checkpoint)
  · intro value
    exact Holds.modify (fun _ holds => holds)
  · intro height raw admitted
    apply Holds.modify
    intro inner holds other stored present
    have shape :
        ({ inner with store := inner.store.insert height raw } :
          Inner Backend Raw).chain = inner.chain.insert height raw := rfl
    rw [shape, BTreeMap.getElem?_insert_eq] at present
    split at present
    · rename_i same
      cases present
      rw [← same]
      exact admitted
    · exact holds other stored present

/-- The file agrees with memory up to what is marked, and writes succeed. -/
structure Synced (inner : Inner (HeaderBackend Raw) Raw) : Prop where
  coherent : inner.store.Coherent
  noFaults : inner.store.backend.faults = []

theorem backend_removeAll
    (store : RamStore (HeaderBackend Raw) Nat Raw)
    (heights : List Nat) :
    (store.removeAll heights).backend = store.backend := by
  induction heights generalizing store with
  | nil =>
      rfl
  | cons height rest inductionHypothesis =>
      exact inductionHypothesis (store.remove height)

variable {inner : Inner (HeaderBackend Raw) Raw}

theorem Synced.flush
    (synced : Synced inner) :
    Synced { inner with store := inner.store.flush.2 } := by
  refine ⟨synced.coherent.flush, ?_⟩
  have written :=
    HeaderBackend.flushBatch_noFaults inner.store.pending
      inner.store.removed.toList synced.noFaults
  show inner.store.flush.2.backend.faults = []
  unfold RamStore.flush
  split
  · exact synced.noFaults
  · simp only [PersistenceBackend.flushBatch]
    split
    · rename_i shape
      rw [shape] at written
      exact written
    · rename_i shape
      rw [shape] at written
      exact written

theorem flushRows_synced :
    Keeps Synced (flushRows : Locked (HeaderBackend Raw) Raw Unit) := by
  intro inner synced
  have after := synced.flush
  unfold flushRows
  rcases flushed : inner.store.flush with ⟨outcome, store⟩
  rw [flushed] at after
  cases outcome with
  | ok value =>
      exact after
  | error reason =>
      exact after

private theorem removeRows_synced (heights : List Nat) :
    Keeps Synced
      (removeRows heights : Locked (HeaderBackend Raw) Raw Unit) := by
  apply Holds.modify
  intro inner synced
  refine ⟨synced.coherent.removeAll heights, ?_⟩
  rw [backend_removeAll]
  exact synced.noFaults

theorem stable_synced (rules : Rules Raw) :
    Stable rules (Synced : Inner (HeaderBackend Raw) Raw → Prop) := by
  apply Stable.of_steps
  · exact removeRows_synced
  · exact flushRows_synced
  · intro value
    exact Holds.modify (fun _ synced => ⟨synced.coherent, synced.noFaults⟩)
  · intro height raw _
    exact Holds.modify (fun _ synced =>
      ⟨synced.coherent.insert height raw, synced.noFaults⟩)

/-- The chain was refused whole, in memory and in the file. -/
structure Refused
    (reason : Abort)
    (inner : Inner (HeaderBackend Raw) Raw) : Prop where
  reported : reason = .error .checkpoint
  emptied : inner.chain = ∅
  flagged : inner.validationState = .invalid .checkpoint
  fileEmptied : inner.store.backend.rows = ∅

theorem clearInner_ok
    (storeCoherent : inner.store.Coherent)
    (taken : (nextWrite inner.store.backend.faults).1 = false) :
    ∃ after,
      (clearInner : Locked (HeaderBackend Raw) Raw Unit) inner =
          .ok () after ∧
        after.chain = ∅ ∧ after.store.backend.rows = ∅ := by
  let removed : RamStore (HeaderBackend Raw) Nat Raw :=
    inner.store.removeAll inner.store.cache.keys
  have coherent : removed.Coherent :=
    storeCoherent.removeAll inner.store.cache.keys
  have sameBackend : removed.backend = inner.store.backend :=
    backend_removeAll inner.store _
  have emptied : removed.cache = ∅ := by
    rw [RamStore.cache_removeAll]
    apply Std.ExtTreeMap.ext_getElem?
    intro height
    rw [BTreeMap.getElem?_eraseAll]
    simp only [Std.ExtTreeMap.mem_keys, Std.ExtTreeMap.getElem?_empty,
      ite_eq_left_iff]
    exact BTreeMap.not_mem_iff_getElem?.mp
  -- Nothing is cached, so the batch only deletes, and what it leaves is
  -- the empty file, which is contiguous.
  have noPending : removed.pending = [] := by
    rw [RamStore.pending, List.filterMap_eq_nil_iff]
    intro height _
    simp [emptied]
  have fileEmptied :
      removed.backend.rows.eraseAll removed.removed.toList = ∅ := by
    have rows := coherent.pending_rows
    rw [noPending, emptied] at rows
    exact rows
  have written :
      (PersistenceBackend.flushBatch removed.backend removed.pending
        removed.removed.toList).1 = .ok () := by
    rw [noPending]
    exact HeaderBackend.flushBatch_empties (sameBackend ▸ taken) fileEmptied
  obtain ⟨store, flushed, kept, rows⟩ := coherent.flush_ok written
  refine ⟨{ inner with store := store }, ?_, kept.trans emptied,
    rows.trans emptied⟩
  show flushRows { inner with store := removed } = _
  simp only [flushRows, flushed]

theorem clearInner_synced
    (synced : Synced inner) :
    ∃ after,
      (clearInner : Locked (HeaderBackend Raw) Raw Unit) inner =
          .ok () after ∧
        after.chain = ∅ ∧ after.store.backend.rows = ∅ :=
  clearInner_ok synced.coherent (by rw [synced.noFaults]; rfl)

theorem holdCheckpoint_agrees
    (btc : Bitcoin Raw)
    (checkpoint : Option Checkpoint)
    (height : Nat)
    (raw : Raw) :
    AgreesUnless Synced Refused
      (holdCheckpoint btc checkpoint height raw)
      (holdCheckpoint btc none height raw :
        Locked (HeaderBackend Raw) Raw Unit) := by
  intro inner synced
  have passes :
      (holdCheckpoint btc none height raw :
        Locked (HeaderBackend Raw) Raw Unit) = pure () := by
    simp [holdCheckpoint, holdsCheckpoint]
  rw [passes]
  unfold holdCheckpoint
  by_cases held : holdsCheckpoint btc checkpoint height raw = true
  · rw [if_pos held]
    exact .inl rfl
  · rw [if_neg held]
    obtain ⟨after, cleared, emptied, fileEmptied⟩ := clearInner_synced synced
    refine .inr ⟨_, { after with validationState := .invalid .checkpoint },
      ?_, rfl, emptied, rfl, fileEmptied⟩
    rw [bind_apply_ok cleared]
    rfl

section Agreement

variable {Raw : Type} (rules : Rules Raw)

private theorem holdCheckpoint_synced (height : Nat) (raw : Raw) :
    Keeps Synced
      (holdCheckpoint rules.btc rules.checkpoint height raw :
        Locked (HeaderBackend Raw) Raw Unit) := by
  unfold holdCheckpoint
  refine Holds.ite (fun _ => Keeps.pure) (fun _ => ?_)
  refine Keeps.bind (stable_synced rules).clear (fun _ => ?_)
  refine Keeps.bind (Holds.modify (fun _ synced =>
    ⟨synced.coherent, synced.noFaults⟩)) (fun _ => Keeps.throw)

private theorem insertRow_synced (height : Nat) (raw : Raw) :
    Keeps Synced
      (insertRow height raw : Locked (HeaderBackend Raw) Raw Unit) :=
  Holds.modify (fun _ synced =>
    ⟨synced.coherent.insert height raw, synced.noFaults⟩)

private theorem judge_synced (verdict : Except ValidatorError Unit) :
    Keeps Synced (judge verdict : Locked (HeaderBackend Raw) Raw Unit) :=
  Holds.conseq (judge_holds verdict) (fun _ synced => synced)
    (fun _ _ reached => reached.1) (fun _ _ synced => synced)

private theorem insertHeld_agrees (rows : List (Nat × Raw)) :
    AgreesUnless Synced Refused
      (insertHeld rules.btc rules.checkpoint rows)
      (insertHeld rules.btc none rows :
        Locked (HeaderBackend Raw) Raw Unit) := by
  induction rows with
  | nil =>
      exact AgreesUnless.refl _
  | cons row rest inductionHypothesis =>
      refine AgreesUnless.bind (holdCheckpoint_agrees _ _ _ _)
        (holdCheckpoint_synced rules _ _) (fun _ => ?_)
      exact AgreesUnless.bind (AgreesUnless.refl _) (insertRow_synced _ _)
        (fun _ => inductionHypothesis)

private theorem insertHeld_synced (rows : List (Nat × Raw)) :
    Keeps Synced
      (insertHeld rules.btc rules.checkpoint rows :
        Locked (HeaderBackend Raw) Raw Unit) := by
  induction rows with
  | nil =>
      exact Keeps.pure
  | cons row rest inductionHypothesis =>
      refine Keeps.bind (holdCheckpoint_synced rules _ _) (fun _ => ?_)
      exact Keeps.bind (insertRow_synced _ _) (fun _ => inductionHypothesis)

private theorem appendRows_agrees
    (now : Nat → Nat)
    (wasEmpty : Bool)
    (start index : Nat)
    (ancestors : List Header)
    (raws : List Raw) :
    AgreesUnless Synced Refused
        (appendRows rules.btc rules.network rules.checkpoint now wasEmpty
          start index ancestors raws)
        (appendRows rules.btc rules.network none now wasEmpty start index
          ancestors raws : Locked (HeaderBackend Raw) Raw Unit) ∧
      Keeps Synced
        (appendRows rules.btc rules.network rules.checkpoint now wasEmpty
          start index ancestors raws :
          Locked (HeaderBackend Raw) Raw Unit) := by
  induction raws generalizing index ancestors with
  | nil =>
      exact ⟨AgreesUnless.refl _, Keeps.pure⟩
  | cons raw rest inductionHypothesis =>
      have summed :
          Keeps Synced
            (addHeights start index :
              Locked (HeaderBackend Raw) Raw Nat) :=
        Holds.conseq (addHeights_holds start index)
          (fun _ synced => synced) (fun _ _ reached => reached.1)
          (fun _ _ synced => synced)
      have decoding :
          Keeps Synced
            (decode rules.btc raw :
              Locked (HeaderBackend Raw) Raw Header) :=
        Holds.conseq (decode_holds rules.btc raw)
          (fun _ synced => synced) (fun _ _ reached => reached.1)
          (fun _ _ synced => synced)
      constructor
      · refine AgreesUnless.bind (AgreesUnless.refl _) summed
          (fun height => ?_)
        refine AgreesUnless.bind (AgreesUnless.refl _) decoding
          (fun header => ?_)
        have stored :=
          AgreesUnless.bind
            (holdCheckpoint_agrees rules.btc rules.checkpoint height raw)
            (holdCheckpoint_synced rules height raw)
            (fun _ =>
              AgreesUnless.bind (AgreesUnless.refl _)
                (insertRow_synced height raw)
                (fun _ => (inductionHypothesis (index + 1)
                  (slideWindow (retargetInterval rules.btc rules.network)
                    ancestors header)).1))
        apply AgreesUnless.ite
        · apply AgreesUnless.ite
          · exact AgreesUnless.bind (AgreesUnless.refl _) Keeps.throw
              (fun _ => AgreesUnless.bind (AgreesUnless.refl _)
                (judge_synced _) (fun _ => stored))
          · exact AgreesUnless.bind (AgreesUnless.refl _)
              (judge_synced _) (fun _ => stored)
        · exact AgreesUnless.bind (AgreesUnless.refl _) (judge_synced _)
            (fun _ => stored)
      · refine Keeps.bind summed (fun height => ?_)
        refine Keeps.bind decoding (fun header => ?_)
        have stored :=
          Keeps.bind (holdCheckpoint_synced rules height raw)
            (fun _ =>
              Keeps.bind (insertRow_synced height raw)
                (fun _ => (inductionHypothesis (index + 1)
                  (slideWindow (retargetInterval rules.btc rules.network)
                    ancestors header)).2))
        refine Holds.ite (fun _ => ?_)
          (fun _ => Keeps.bind (judge_synced _) (fun _ => stored))
        refine Holds.ite (fun _ => ?_)
          (fun _ => Keeps.bind (judge_synced _) (fun _ => stored))
        exact Keeps.bind Keeps.throw
          (fun _ => Keeps.bind (judge_synced _) (fun _ => stored))

theorem appendLocked_agrees
    (height nowSecs : Nat)
    (raw : Raw)
    (incoming : Header) :
    AgreesUnless Synced Refused
      (appendLocked rules.btc rules.network rules.checkpoint height raw
        incoming nowSecs)
      (appendLocked rules.btc rules.network none height raw incoming
        nowSecs : Locked (HeaderBackend Raw) Raw Unit) := by
  refine AgreesUnless.bind (AgreesUnless.refl _) Keeps.get (fun _ => ?_)
  refine AgreesUnless.bind (AgreesUnless.refl _) (judge_synced _)
    (fun _ => ?_)
  exact AgreesUnless.bind (holdCheckpoint_agrees _ _ _ _)
    (holdCheckpoint_synced rules _ _) (fun _ => AgreesUnless.refl _)

theorem appendBatchLocked_agrees
    (now : Nat → Nat)
    (start : Nat)
    (raws : List Raw) :
    AgreesUnless Synced Refused
      (appendBatchLocked rules.btc rules.network rules.checkpoint now start
        raws)
      (appendBatchLocked rules.btc rules.network none now start raws :
        Locked (HeaderBackend Raw) Raw Unit) := by
  refine AgreesUnless.bind (AgreesUnless.refl _) Keeps.get (fun _ => ?_)
  obtain ⟨agrees, synced⟩ := appendRows_agrees rules now _ start 0 _ raws
  exact AgreesUnless.bind agrees synced (fun _ => AgreesUnless.refl _)

theorem replaceBranchLocked_agrees
    (forkHeight : Nat)
    (branch : HeaderMap Raw) :
    AgreesUnless Synced Refused
      (replaceBranchLocked rules.btc rules.checkpoint forkHeight branch)
      (replaceBranchLocked rules.btc none forkHeight branch :
        Locked (HeaderBackend Raw) Raw Unit) := by
  refine AgreesUnless.bind (AgreesUnless.refl _) Keeps.get (fun _ => ?_)
  refine AgreesUnless.bind (AgreesUnless.refl _) (removeRows_synced _)
    (fun _ => ?_)
  exact AgreesUnless.bind (insertHeld_agrees rules _)
    (insertHeld_synced rules _) (fun _ => AgreesUnless.refl _)

theorem prependLocked_agrees
    (nowSecs low floor : Nat)
    (raws : List Raw) :
    AgreesUnless Synced Refused
      (prependLocked rules.btc rules.network rules.checkpoint nowSecs low
        floor raws)
      (prependLocked rules.btc rules.network none nowSecs low floor raws :
        Locked (HeaderBackend Raw) Raw Unit) := by
  refine AgreesUnless.bind (AgreesUnless.refl _) Keeps.get (fun read => ?_)
  cases read.store.get floor with
  | none =>
      exact AgreesUnless.refl _
  | some floorRaw =>
      refine AgreesUnless.bind (AgreesUnless.refl _) (judge_synced _)
        (fun _ => ?_)
      exact AgreesUnless.bind (insertHeld_agrees rules _)
        (insertHeld_synced rules _) (fun _ => AgreesUnless.refl _)

end Agreement

section Guarantee

variable {σ Raw : Type}

private theorem withWriter_agrees
    {store : HeaderStore (HeaderBackend Raw) Raw}
    (token : Nat)
    {body other : Locked (HeaderBackend Raw) Raw Unit}
    (synced : Synced store.inner)
    (agrees : AgreesUnless Synced Refused body other) :
    (store.withWriter token body).2.chain =
        (({ store with checkpoint := none } :
          HeaderStore (HeaderBackend Raw) Raw).withWriter token
            other).2.chain ∨
      ∃ reason after,
        store.withWriter token body = (.error reason, after) ∧
          Refused reason after.inner := by
  unfold HeaderStore.withWriter
  by_cases stale : store.writerToken ≠ token
  · rw [if_pos stale, if_pos stale]
    exact .inl rfl
  · rw [if_neg stale, if_neg stale]
    rcases agrees store.inner synced with
      same | ⟨reason, after, failed, refused⟩
    · left
      rw [same]
      cases other store.inner <;> rfl
    · right
      rw [failed]
      exact ⟨reason, store.release after, rfl, refused⟩

/--
An operation whose unpinned twin ends with another block at the checkpoint
height refuses the chain whole.
-/
theorem refused_of_contradiction
    (btc : Bitcoin Raw)
    (store : HeaderStore (HeaderBackend Raw) Raw)
    (token : Nat)
    (operation : WriterOp Raw)
    (synced : Synced store.inner)
    (held : HoldsThroughout btc store.checkpoint store.chain)
    (contradicts :
      ¬ HoldsThroughout btc store.checkpoint
        (operation.apply btc token
          { store with checkpoint := none }).2.chain) :
    ∃ reason after,
      operation.apply btc token store = (.error reason, after) ∧
        Refused reason after.inner := by
  let rules := anyServer btc store.network store.checkpoint
  have kept :
      ∀ {body : Locked (HeaderBackend Raw) Raw Unit},
        Keeps (fun inner =>
          HoldsThroughout btc store.checkpoint inner.chain) body →
        HoldsThroughout btc store.checkpoint
          (store.withWriter token body).2.chain := by
    intro body keeps
    unfold HeaderStore.withWriter
    split
    · exact held
    · have reached := keeps store.inner held
      cases outcome : body store.inner with
      | ok value after | error reason after =>
          rw [outcome] at reached
          exact reached
  have conclude :
      ∀ {body other : Locked (HeaderBackend Raw) Raw Unit},
        AgreesUnless Synced Refused body other →
        Keeps (fun inner =>
          HoldsThroughout btc store.checkpoint inner.chain) body →
        ¬ HoldsThroughout btc store.checkpoint
          (({ store with checkpoint := none } :
            HeaderStore (HeaderBackend Raw) Raw).withWriter token
              other).2.chain →
        ∃ reason after,
          store.withWriter token body = (.error reason, after) ∧
            Refused reason after.inner := by
    intro body other agrees keeps different
    rcases withWriter_agrees token synced agrees with same | refused
    · exact (different (same ▸ kept keeps)).elim
    · exact refused
  have stable :
      Stable rules (fun inner : Inner (HeaderBackend Raw) Raw =>
        HoldsThroughout rules.btc rules.checkpoint inner.chain) :=
    stable_holdsThroughout rules
  cases operation with
  | append nowSecs height raw =>
      simp only [WriterOp.apply, HeaderStore.append] at contradicts ⊢
      cases decoded : btc.deserialize raw with
      | none =>
          simp only [decoded] at contradicts
          exact (contradicts held).elim
      | some incoming =>
          simp only [decoded] at contradicts ⊢
          exact conclude (appendLocked_agrees rules height nowSecs raw
            incoming) (stable.append _ _ _ _) contradicts
  | appendBatch now start raws =>
      simp only [WriterOp.apply, HeaderStore.appendBatch] at contradicts ⊢
      by_cases nothing : raws = []
      · rw [if_pos nothing] at contradicts
        exact (contradicts held).elim
      · rw [if_neg nothing] at contradicts ⊢
        exact conclude (appendBatchLocked_agrees rules now start raws)
          (stable.appendBatch _ _ _) contradicts
  | replaceBranch forkHeight branch =>
      exact conclude (replaceBranchLocked_agrees rules forkHeight branch)
        (stable.replaceBranch _ _) contradicts
  | prepend nowSecs low raws =>
      simp only [WriterOp.apply, HeaderStore.prepend] at contradicts ⊢
      by_cases overflows : low + raws.length > u32Max
      · rw [if_pos overflows] at contradicts
        exact (contradicts held).elim
      · rw [if_neg overflows] at contradicts ⊢
        exact conclude (prependLocked_agrees rules nowSecs low _ raws)
          (stable.prepend _ _ _ _) contradicts

/-- `raw` is the checkpoint block. -/
def IsCheckpointBlock
    (btc : Bitcoin Raw)
    (pinned : Checkpoint)
    (raw : Raw) : Prop :=
  ∃ header,
    btc.deserialize raw = some header ∧ btc.blockHash header = pinned.hash

variable {btc : Bitcoin Raw} {pinned : Checkpoint} {network : Network}

theorem holdsThroughout_iff
    {chain : HeaderMap Raw} :
    HoldsThroughout btc (some pinned) chain ↔
      ∀ raw, chain[pinned.height]? = some raw →
        IsCheckpointBlock btc pinned raw := by
  have admits :
      ∀ height raw,
        holdsCheckpoint btc (some pinned) height raw = true ↔
          height ≠ pinned.height ∨ IsCheckpointBlock btc pinned raw := by
    intro height raw
    cases decoded : btc.deserialize raw <;>
      simp [holdsCheckpoint, IsCheckpointBlock, decoded]
  constructor
  · intro holds raw present
    exact ((admits _ raw).mp (holds _ raw present)).resolve_left (by simp)
  · intro holds height raw present
    refine (admits height raw).mpr ?_
    by_cases here : height = pinned.height
    · subst here
      exact .inr (holds raw present)
    · exact .inl here

theorem holdsThroughout_of_sanityCheck
    {rows : HeaderMap Raw}
    (sane : sanityCheck btc network (some pinned) rows = .ok ()) :
    HoldsThroughout btc (some pinned) rows := by
  rcases covers_of_sanityCheck sane with
    empty | ⟨low, high, ordered, covers, -⟩
  · intro height raw present
    simp [empty] at present
  · unfold sanityCheck at sane
    simp only [covers.firstKey?_eq ordered, covers.lastKey?_eq ordered]
      at sane
    split at sane
    · cases sane
    · split at sane
      · cases sane
      · split at sane
        · cases sane
        · split at sane
          · cases sane
          · rename_i holds
            intro height raw present
            by_cases here : height = pinned.height
            · subst here
              simpa [present] using holds
            · simp [holdsCheckpoint, here]

theorem synced_withCheckpoint
    (btc : Bitcoin Raw)
    (nowSecs : Nat)
    (network : Network)
    (checkpoint : Option Checkpoint)
    (rows : HeaderMap Raw) :
    Synced
      (HeaderStore.withCheckpoint btc nowSecs network checkpoint
        { rows := rows, faults := [] : HeaderBackend Raw }).inner := by
  have loaded :
      Synced
        (HeaderStore.load network checkpoint
          { rows := rows, faults := [] : HeaderBackend Raw }).inner :=
    ⟨RamStore.coherent_open _, rfl⟩
  have cleared :
      Synced
        (HeaderStore.load network checkpoint
          { rows := rows, faults := [] :
            HeaderBackend Raw }).clearStore.inner := by
    have keeps :=
      (stable_synced (anyServer btc network checkpoint)).clear _ loaded
    unfold HeaderStore.clearStore
    cases outcome : (clearInner : Locked (HeaderBackend Raw) Raw Unit)
        (HeaderStore.load network checkpoint
          { rows := rows, faults := [] : HeaderBackend Raw }).inner with
    | ok value after | error reason after =>
        rw [outcome] at keeps
        exact keeps
  simp only [HeaderStore.withCheckpoint, HeaderStore.startReplayValidation]
  split
  · exact ⟨loaded.coherent, loaded.noFaults⟩
  · split
    · exact ⟨cleared.coherent, cleared.noFaults⟩
    · split
      · exact ⟨cleared.coherent, cleared.noFaults⟩
      · exact ⟨loaded.coherent, loaded.noFaults⟩

theorem locked_of_runSessions
    {Backend : Type}
    [PersistenceBackend Backend Nat Raw]
    {checkpoint : Option Checkpoint}
    {backend : Backend}
    {nowSecs : Nat}
    {locked : Inner Backend Raw → Prop}
    (stable : Stable (anyServer btc network checkpoint) locked)
    (start :
      locked
        (HeaderStore.withCheckpoint btc nowSecs network checkpoint
          backend).inner)
    (env : Env σ Raw)
    (sessions : List (σ × Nat)) :
    ∀ inner ∈
        (runSessions btc env sessions
          (HeaderStore.withCheckpoint btc nowSecs network checkpoint
            backend)).visited,
      locked inner := by
  have safe :=
    safe_runSessions_withCheckpoint (closed_validity stable)
      (validChain_withCheckpoint btc network checkpoint backend nowSecs)
      start env sessions
  intro inner member
  rcases List.mem_cons.mp member with now | before
  · rw [now]
    exact safe.locked
  · exact (safe.released inner before).2

end Guarantee

/-- A genesis header other than the block pinned below. -/
def strayHeader : Header where
  version := 1
  prevBlockhash := 0
  merkleRoot := 0
  time := 500
  bits := 1000
  nonce := 5

/-- A fresh regtest store bound to block 7 at the genesis height. -/
def pinnedStore : HeaderStore (HeaderBackend Header) Header :=
  runSessions Bitcoin.sample silentServer []
    (HeaderStore.withCheckpoint Bitcoin.sample 1000 .regtest
      (some { height := 0, hash := 7 }) { rows := ∅, faults := [] })

end Bwk
