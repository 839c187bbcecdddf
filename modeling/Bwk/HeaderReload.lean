import Bwk.HeaderCompleteness
import Bwk.HeaderRanges

namespace Bwk

/-!
# Reloading what was written

A restart judges the persisted rows again, with `sanity_check` and
`replay_validate`.  Here the writer operations are called in any order on a
fresh store, and a reload is compared with what they stored.

A header is judged once, when it comes in, on the ancestors stored at that
time.  Appends and switches leave those ancestors in place, and a later clock
only relaxes the verdict.  A prepend does not: the headers right above the old
floor get a longer window of past times, and nothing judges them on it until
the restart does.
-/

/-- A replay at `later` accepts the header. -/
def replaysAt
    (btc : Bitcoin Raw)
    (network : Network)
    (later : Nat) : RowRule Raw :=
  fun chain low height header =>
    replayRow btc network later low
      (decodeAncestors btc chain height (retargetInterval btc network))
      height header = .ok ()

/-- The rules of a store whose writes all happen up to `later`. -/
def writtenBefore
    (btc : Bitcoin Raw)
    (network : Network)
    (checkpoint : Option Checkpoint)
    (later : Nat) : Rules Raw where
  btc := btc
  network := network
  checkpoint := checkpoint
  anchors := fun _ => True
  clocks := fun nowSecs => nowSecs ≤ later

section Judgement

variable {btc : Bitcoin Raw} {network : Network}
variable {checkpoint : Option Checkpoint} {later : Nat}

theorem replaysAt_downward :
    Downward (replaysAt btc network later) := by
  intro chain other low height header replays same
  have window :
      decodeAncestors btc other height (retargetInterval btc network) =
        decodeAncestors btc chain height (retargetInterval btc network) :=
    (collectAncestors_congr btc height _ same).symm
  rw [replaysAt, window]
  exact replays

/-- What a write asked of a header, a replay at a later clock asks again. -/
theorem replaysAt_implied :
    Implied (writtenBefore btc network checkpoint later)
      (replaysAt btc network later) := by
  intro chain low height nowSecs header ordered replays
  unfold replaysAt
  unfold replayRow at replays ⊢
  split at replays
  · rename_i atZero
    rw [if_pos atZero]
    exact validateAppend_later replays ordered
  · rename_i positive
    rw [if_neg positive]
    split at replays
    · rename_i above
      rw [if_pos above]
      exact validateAppend_later replays ordered
    · rename_i atFloor
      rw [if_neg atFloor]
      exact replays

end Judgement

/-- What both checks of a reload at `later` accept. -/
structure Reloads
    (btc : Bitcoin Raw)
    (network : Network)
    (checkpoint : Option Checkpoint)
    (later : Nat)
    (chain : HeaderMap Raw) : Prop where
  replays : ChainOf btc network (replaysAt btc network later) chain
  held : HoldsThroughout btc checkpoint chain

section Reloading

variable {btc : Bitcoin Raw} {network : Network}
variable {checkpoint : Option Checkpoint} {later : Nat}
variable {chain : HeaderMap Raw}

theorem reloads_empty : Reloads btc network checkpoint later ∅ :=
  ⟨.inl rfl, by intro height raw present; simp at present⟩

theorem Reloads.replayValidate
    (reloads : Reloads btc network checkpoint later chain) :
    replayValidate btc network chain later = .ok () := by
  rcases reloads.replays with rfl | ⟨low, high, range⟩
  · rfl
  · exact (replayValidate_eq_ok_iff range.covers range.ordered).mpr
      range.rows

theorem Reloads.sanityCheck
    (reloads : Reloads btc network checkpoint later chain) :
    sanityCheck btc network checkpoint chain = .ok () := by
  rcases reloads.replays with rfl | ⟨low, high, range⟩
  · rfl
  have genesis : holdsGenesis btc network chain = true := by
    unfold holdsGenesis
    split
    · rename_i genesis raw pinned present
      obtain ⟨header, decoded, replays⟩ := range.rows 0 raw present
      rw [replaysAt, replayRow, if_pos rfl,
        validateAppend_zero_eq_ok_iff] at replays
      simp [decoded, blockHash_of_checkGenesis replays.2.1 pinned]
    · rfl
  have noContradiction :
      checkpoint.any (fun pinned =>
        (chain[pinned.height]?).any (fun raw =>
          !holdsCheckpoint btc checkpoint pinned.height raw)) = false := by
    cases checkpoint with
    | none =>
        rfl
    | some pinned =>
        cases present : chain[pinned.height]? with
        | none =>
            simp [present]
        | some raw =>
            simp [present, reloads.held pinned.height raw present]
  have span :
      ¬ high - low + 1 ≠ chain.size := by
    rw [range.covers.size_eq range.ordered]
    have ordered := range.ordered
    omega
  have aligned : ¬ (low ≠ 0 ∧ low % backfillChunk btc network ≠ 0) :=
    fun off => off.2 range.boundary
  simp only [Bwk.sanityCheck, range.covers.firstKey?_eq range.ordered,
    range.covers.lastKey?_eq range.ordered, span, aligned, genesis,
    noContradiction, ↓reduceIte, Bool.not_true, Bool.false_eq_true]

end Reloading

def prepended
    (chain : HeaderMap Raw)
    (low : Nat)
    (raws : List Raw) : HeaderMap Raw :=
  chain.insertAll ((List.range' low raws.length).zip raws)

/--
The headers whose window of past times a prepend lengthens are later than the
median of the longer window.
-/
def MedianKept
    (btc : Bitcoin Raw)
    (network : Network)
    (chain : HeaderMap Raw)
    (low : Nat)
    (raws : List Raw) : Prop :=
  ∀ height header,
    low + raws.length < height →
    height < low + raws.length + mtpWindow →
    headerAt btc (fun below => chain[below]?) height = some header →
      checkMtp network
        (decodeAncestors btc (prepended chain low raws) height
          (retargetInterval btc network)) header = .ok ()

section Lowering

variable {btc : Bitcoin Raw} {network : Network}
variable {checkpoint : Option Checkpoint} {later : Nat}

theorem RangeOf.length_decodeAncestors
    {row : RowRule Raw}
    {chain : HeaderMap Raw}
    {low high : Nat}
    (range : RangeOf btc network row chain low high)
    (count : Nat)
    (within : low + count ≤ high + 1) :
    (decodeAncestors btc chain (low + count)
        (retargetInterval btc network)).length =
      min count (retargetInterval btc network) := by
  have positive := retargetInterval_pos btc network
  induction count with
  | zero =>
      rw [Nat.add_zero, decodeAncestors_floor btc range.covers]
      simp
  | succ count inductionHypothesis =>
      obtain ⟨raw, present⟩ :=
        BTreeMap.mem_iff_getElem?.mp
          ((range.covers (low + count)).mpr ⟨by omega, by omega⟩)
      obtain ⟨header, decoded, -⟩ := range.rows (low + count) raw present
      have shown :
          headerAt btc (fun below => chain[below]?) (low + count) =
            some header := by
        simp [headerAt, present, decoded]
      have slid :
          decodeAncestors btc chain (low + count + 1)
              (retargetInterval btc network) =
            slideWindow (retargetInterval btc network)
              (decodeAncestors btc chain (low + count)
                (retargetInterval btc network)) header :=
        collectAncestors_succ btc _ positive shown
      have before := inductionHypothesis (by omega)
      rw [← Nat.add_assoc, slid, slideWindow]
      split
      · rename_i full
        rw [List.length_append, List.length_singleton] at full
        rw [List.length_tail, List.length_append, List.length_singleton]
        omega
      · rename_i short
        rw [List.length_append, List.length_singleton] at short ⊢
        omega

variable {chain lowered : HeaderMap Raw}

/--
Over a lowered floor a header above the old one replays again, if the median
rule holds on its longer window.
-/
theorem replaysAt_lowered
    {low floor high height : Nat}
    {header : Header}
    (range :
      RangeOf btc network (replaysAt btc network later) chain floor high)
    (below : low ≤ floor)
    (above : floor < height)
    (within : height ≤ high)
    (extends_ :
      ∀ (other : Nat) raw, chain[other]? = some raw →
        lowered[other]? = some raw)
    (median :
      height < floor + mtpWindow →
        checkMtp network
          (decodeAncestors btc lowered height
            (retargetInterval btc network)) header = .ok ())
    (replays : replaysAt btc network later chain floor height header) :
    replaysAt btc network later lowered low height header := by
  have positive : height ≠ 0 := by omega
  have interval := retargetInterval_pos btc network
  have suffix :
      decodeAncestors btc chain height (retargetInterval btc network) <:+
        decodeAncestors btc lowered height
          (retargetInterval btc network) :=
    collectAncestors_suffix btc interval height extends_
  rw [replaysAt, replayRow, if_neg positive, if_pos above,
    validateAppend_eq_ok_iff positive] at replays
  obtain ⟨cap, prev, parent, work, linked, retargets, late⟩ := replays
  rw [replaysAt, replayRow, if_neg positive, if_pos (by omega),
    validateAppend_eq_ok_iff positive]
  refine ⟨cap, prev, ?_, work, linked, ?_, ?_⟩
  · obtain ⟨older, split⟩ := suffix
    rw [← split, List.getLast?_append, parent]
    rfl
  · intro judged
    exact checkRetarget_of_suffix suffix
      (collectAncestors_length_le btc _ interval height)
      (retargets judged)
  · by_cases near : height < floor + mtpWindow
    · exact median near
    · -- Enough of the old window is left for the median not to change.
      have length :=
        range.length_decodeAncestors (height - floor) (by omega)
      rw [show floor + (height - floor) = height by omega] at length
      have wide : mtpWindow ≤ retargetInterval btc network := by
        simp [mtpWindow, retargetInterval]
      rw [checkMtp_of_suffix suffix (by rw [length]; omega)]
      exact late

variable {low high nowSecs : Nat} {raws : List Raw} {floorRaw : Raw}

theorem Lower.eq_prepended
    {rules : Rules Raw}
    (lower :
      Lower rules chain lowered low (low + raws.length) high
        (prependRange low (low + raws.length) raws floorRaw) nowSecs) :
    lowered = prepended chain low raws := by
  have keys :
      ((List.range' low raws.length).zip raws).map Prod.fst =
        List.range' low raws.length :=
    List.map_fst_zip (by simp)
  have distinct :
      (((List.range' low raws.length).zip raws).map Prod.fst).Nodup := by
    rw [keys]
    exact List.nodup_range'
  apply Std.ExtTreeMap.ext_getElem?
  intro height
  apply Option.ext
  intro raw
  rw [lower.rows, prepended,
    BTreeMap.getElem?_insertAll_of_nodup chain distinct, keys,
    List.mem_range'_1]
  by_cases under : height < low + raws.length
  · have notFloor : ¬ low + raws.length = height := by omega
    rw [if_pos under, prependRange, BTreeMap.getElem?_insert_eq,
      if_neg notFloor, BTreeMap.getElem?_insertAll_of_nodup ∅ distinct]
    have absent : chain[height]? = none := by
      apply BTreeMap.not_mem_iff_getElem?.mp
      rw [lower.covers height]
      omega
    simp [absent]
  · rw [if_neg under]
    constructor
    · intro present
      exact .inr ⟨by omega, present⟩
    · rintro (listed | ⟨-, present⟩)
      · have member :=
          List.mem_map.mpr ⟨_, listed, (rfl : (height, raw).1 = height)⟩
        rw [keys, List.mem_range'_1] at member
        omega
      · exact present

theorem chainOf_lowered
    (replays : ChainOf btc network (replaysAt btc network later) chain)
    (median : MedianKept btc network chain low raws)
    (lower :
      Lower (writtenBefore btc network checkpoint later) chain lowered low
        (low + raws.length) high
        (prependRange low (low + raws.length) raws floorRaw) nowSecs) :
    ChainOf btc network (replaysAt btc network later) lowered := by
  have range := replays.range lower.covers lower.ordered
  have shape := lower.eq_prepended
  refine .inr ⟨_, _, range.lower replaysAt_downward replaysAt_implied lower
    ?_⟩
  intro extends_ height raw header above present decoded inPlace
  have within :=
    (lower.covers height).mp (BTreeMap.mem_iff_getElem?.mpr ⟨raw, present⟩)
  refine replaysAt_lowered range lower.below above within.2 extends_ ?_
    inPlace
  intro near
  rw [shape]
  exact median height header above near
    (by simp [headerAt, present, show btc.deserialize raw = _ from decoded])

end Lowering

/-- The code a call runs under the lock. -/
def WriterOp.locked
    [PersistenceBackend Backend Nat Raw]
    (btc : Bitcoin Raw)
    (network : Network)
    (checkpoint : Option Checkpoint) :
    WriterOp Raw → Locked Backend Raw Unit
  | .append nowSecs height raw =>
      match btc.deserialize raw with
      | none => throw (.error (.validate .malformedHeader))
      | some incoming =>
          appendLocked btc network checkpoint height raw incoming nowSecs
  | .appendBatch now start raws =>
      if raws = [] then
        pure ()
      else
        appendBatchLocked btc network checkpoint now start raws
  | .replaceBranch forkHeight branch =>
      replaceBranchLocked btc checkpoint forkHeight branch
  | .prepend nowSecs low raws =>
      if low + raws.length > u32Max then
        throw .panic
      else
        prependLocked btc network checkpoint nowSecs low
          (low + raws.length) raws

theorem WriterOp.apply_eq
    [PersistenceBackend Backend Nat Raw]
    (btc : Bitcoin Raw)
    (token : Nat)
    (store : HeaderStore Backend Raw)
    (operation : WriterOp Raw) :
    (operation.apply btc token store).2 = store ∨
      (operation.apply btc token store).2 =
        store.release
          (finalState
            (operation.locked btc store.network store.checkpoint
              store.inner)) := by
  have underLock :
      ∀ body : Locked Backend Raw Unit,
        (store.withWriter token body).2 = store ∨
          (store.withWriter token body).2 =
            store.release (finalState (body store.inner)) := by
    intro body
    unfold HeaderStore.withWriter
    split
    · exact .inl rfl
    · right
      cases body store.inner <;> rfl
  cases operation with
  | append nowSecs height raw =>
      cases decoded : btc.deserialize raw with
      | none =>
          left
          simp [WriterOp.apply, HeaderStore.append, decoded]
      | some incoming =>
          simp only [WriterOp.apply, HeaderStore.append, decoded,
            WriterOp.locked]
          exact underLock _
  | appendBatch now start raws =>
      simp only [WriterOp.apply, HeaderStore.appendBatch, WriterOp.locked]
      split
      · exact .inl rfl
      · exact underLock _
  | replaceBranch forkHeight branch =>
      exact underLock _
  | prepend nowSecs low raws =>
      simp only [WriterOp.apply, HeaderStore.prepend, WriterOp.locked]
      split
      · exact .inl rfl
      · exact underLock _

/--
A call as the worker makes it, up to `later`: appends go above the tip, a
branch was validated on the chain, and a prepend ends at the floor, starts on a
boundary and keeps the median rule of the headers above the floor.
-/
def WriterOp.Fits
    (btc : Bitcoin Raw)
    (network : Network)
    (later : Nat)
    (chain : HeaderMap Raw) : WriterOp Raw → Prop
  | .append nowSecs height _ =>
      nowSecs ≤ later ∧ ∀ tip, chain.lastKey? = some tip → tip < height
  | .appendBatch now start _ =>
      (∀ reading, now reading ≤ later) ∧
        ∀ tip, chain.lastKey? = some tip → tip < start
  | .replaceBranch forkHeight branch =>
      forkHeight ∈ chain ∧ forkHeight < u32Max ∧
        ∃ incomingHeight buffer nowSecs validated,
          nowSecs ≤ later ∧
          HeaderBranch.validate btc network chain forkHeight incomingHeight
            buffer nowSecs = .ok validated ∧
          branch = validated.headers
  | .prepend nowSecs low raws =>
      nowSecs ≤ later ∧
        (low + raws.length ∈ chain →
          chain.firstKey? = some (low + raws.length) ∧
          low % retargetInterval btc network = 0 ∧
          MedianKept btc network chain low raws)

section Call

variable {Backend Raw : Type} [PersistenceBackend Backend Nat Raw]
variable {btc : Bitcoin Raw} {network : Network}
variable {checkpoint : Option Checkpoint} {later : Nat}

variable {chain : HeaderMap Raw}

theorem Rules.Judged.parent
    {rules : Rules Raw}
    {height : Nat}
    {raw : Raw}
    (judged : rules.Judged chain height raw)
    (positive : height ≠ 0) :
    height - 1 ∈ chain := by
  obtain ⟨header, nowSecs, -, -, accepted⟩ := judged
  rw [validateAppend_eq_ok_iff positive] at accepted
  obtain ⟨-, prev, parent, -⟩ := accepted
  by_contra absent
  rw [decodeAncestors_of_gap rules.btc height (by
    intro below adjacent
    rw [show below = height - 1 by omega]
    exact BTreeMap.not_mem_iff_getElem?.mp absent)] at parent
  cases parent

theorem appendBatchLocked_gap
    {now : Nat → Nat}
    {low high start : Nat}
    {raws : List Raw}
    (covers : chain.Covers low high)
    (ordered : low ≤ high)
    (gap : high + 1 < start)
    (nonempty : raws ≠ []) :
    Holds (Stores chain)
      (appendBatchLocked btc network checkpoint now start raws :
        Locked Backend Raw Unit)
      (fun _ _ => False) (fun _ => Stores chain) := by
  obtain ⟨raw, rest, rfl⟩ := List.exists_cons_of_ne_nil nonempty
  apply Holds.bindGet
  intro read stored
  have cached : read.store.cache = chain := stored
  have notEmpty : read.store.cache.isEmpty = false := by
    rw [cached, Std.ExtTreeMap.isEmpty_eq_false_iff]
    exact covers.ne_empty ordered
  have noAncestors :
      collectAncestors btc start (retargetInterval btc network)
        read.store.get = [] := by
    have none : decodeAncestors btc chain start
        (retargetInterval btc network) = [] := by
      apply decodeAncestors_of_gap
      intro below adjacent
      apply BTreeMap.not_mem_iff_getElem?.mp
      rw [covers below]
      omega
    rw [← cached] at none
    exact none
  simp only [notEmpty, Bool.false_eq_true, ↓reduceIte, noAncestors,
    appendRows, false_and]
  refine Holds.through (fun _ _ => False) ?_
    (fun _ _ impossible => impossible.elim)
  refine Holds.step (addHeights_holds start 0)
    (fun _ _ same => same) ?_
  rintro height ⟨rfl, -⟩
  refine Holds.step (decode_holds btc raw) (fun _ _ same => same) ?_
  intro header _
  refine Holds.step (judge_holds _) (fun _ _ same => same) ?_
  intro _ accepted
  rw [validateAppend_eq_ok_iff (by omega)] at accepted
  obtain ⟨-, prev, parent, -⟩ := accepted
  cases parent

theorem WriterOp.locked_replays
    (checkpoint : Option Checkpoint)
    {operation : WriterOp Raw}
    (replays : ChainOf btc network (replaysAt btc network later) chain)
    (fits : operation.Fits btc network later chain) :
    let replaysStill : Inner Backend Raw → Prop := fun inner =>
      ChainOf btc network (replaysAt btc network later) inner.chain
    Holds (Stores chain)
      (operation.locked btc network checkpoint : Locked Backend Raw Unit)
      (fun _ => replaysStill) (fun _ => replaysStill) := by
  intro replaysStill
  let rules := writtenBefore btc network checkpoint later
  have unchanged :
      ∀ inner : Inner Backend Raw, Stores chain inner →
        replaysStill inner := by
    intro inner same
    rw [show replaysStill inner = ChainOf _ _ _ inner.chain from rfl,
      show inner.chain = chain from same]
    exact replays
  have emptied :
      ∀ inner : Inner Backend Raw, Stores ∅ inner → replaysStill inner :=
    fun inner same => .inl same
  have grown :
      ∀ inner : Inner Backend Raw, Grows rules chain inner.chain →
        replaysStill inner :=
    fun inner grows =>
      ChainOf.grows rules replaysAt_downward replaysAt_implied
        replays grows
  cases operation with
  | append nowSecs height raw =>
      obtain ⟨clock, aboveTip⟩ := fits
      have appended :
          ∀ inner : Inner Backend Raw,
            Appended rules chain height raw inner.chain →
              replaysStill inner := by
        intro inner appended
        refine grown inner (grows_of_appended trivial ?_ appended).1
        rcases replays with empty | ⟨low, high, range⟩
        · exact .inl empty
        · have above :=
            aboveTip high (range.covers.lastKey?_eq range.ordered)
          have parent :=
            (range.covers _).mp (appended.judged.parent (by omega))
          exact .inr ⟨low, high, range.ordered, range.covers, by omega⟩
      cases decoded : btc.deserialize raw with
      | none =>
          simp only [WriterOp.locked, decoded]
          exact Holds.throw unchanged
      | some incoming =>
          simp only [WriterOp.locked, decoded]
          refine Holds.conseq
            (appendLocked_holds rules chain clock decoded)
            (fun _ same => same) (fun _ => appended) ?_
          rintro _ inner (same | same | reached)
          · exact unchanged inner same
          · exact emptied inner same
          · exact appended inner reached
  | appendBatch now start raws =>
      obtain ⟨clock, aboveTip⟩ := fits
      unfold WriterOp.locked
      refine Holds.ite (fun _ => Holds.pure unchanged) (fun nonempty => ?_)
      have continuing :
          Continues rules chain start →
            Holds (Stores chain)
              (appendBatchLocked btc network checkpoint now start raws :
                Locked Backend Raw Unit)
              (fun _ => replaysStill) (fun _ => replaysStill) := by
        intro continues
        exact Holds.conseq
          (appendBatchLocked_holds rules clock continues
            nonempty)
          (fun _ same => same)
          (fun _ inner reached => grown inner reached.1)
          (fun _ inner reached => grown inner reached)
      rcases replays with empty | ⟨low, high, range⟩
      · exact continuing (.inl ⟨empty, trivial⟩)
      · have above :=
          aboveTip high (range.covers.lastKey?_eq range.ordered)
        by_cases next : start = high + 1
        · exact continuing
            (.inr ⟨low, high, range.ordered, range.covers, next⟩)
        · exact Holds.conseq
            (appendBatchLocked_gap range.covers range.ordered (by omega)
              nonempty)
            (fun _ same => same) (fun _ _ impossible => impossible.elim)
            (fun _ => unchanged)
  | replaceBranch forkHeight branch =>
      obtain ⟨stored, inRange, incomingHeight, buffer, nowSecs, validated,
        clock, accepted, rfl⟩ := fits
      obtain ⟨raws, -, rows, judged, -⟩ :=
        validate_ok rules clock inRange accepted
      rcases replays with empty | ⟨low, high, range⟩
      · simp [empty] at stored
      · have within := (range.covers forkHeight).mp stored
        have switched :
            ∀ inner : Inner Backend Raw,
              (Stores (replaced chain forkHeight validated.headers) inner ∧
                ∀ row ∈ validated.headers.toList,
                  holdsCheckpoint btc checkpoint row.1 row.2 = true) →
                replaysStill inner := by
          rintro inner ⟨same, admitted⟩
          apply grown inner
          rw [show inner.chain = _ from same]
          exact (grows_replaced rules range.covers within.1
            within.2 rows judged admitted).1
        refine Holds.conseq
          (replaceBranchLocked_holds btc checkpoint chain forkHeight
            validated.headers)
          (fun _ same => same) (fun _ => switched) ?_
        rintro _ inner (reached | ⟨same, -⟩)
        · exact switched inner reached
        · exact emptied inner same
  | prepend nowSecs low raws =>
      obtain ⟨clock, meets⟩ := fits
      unfold WriterOp.locked
      refine Holds.ite (fun _ => Holds.throw unchanged) (fun _ => ?_)
      by_cases stored : low + raws.length ∈ chain
      · obtain ⟨atFloor, boundary, median⟩ := meets stored
        rcases replays with empty | ⟨floor, high, range⟩
        · simp [empty] at stored
        · have covers := range.covers
          have ordered := range.ordered
          rw [covers.firstKey?_eq ordered, Option.some.injEq] at atFloor
          subst atFloor
          have lowered :
              ∀ inner : Inner Backend Raw,
                (∃ floorRaw,
                  Lower rules chain inner.chain low (low + raws.length)
                    high
                    (prependRange low (low + raws.length) raws floorRaw)
                    nowSecs) →
                  replaysStill inner := by
            rintro inner ⟨floorRaw, lower⟩
            exact chainOf_lowered (.inr ⟨_, _, range⟩) median lower
          refine Holds.conseq
            (prependLocked_holds rules clock covers ordered
              boundary)
            (fun _ same => same) (fun _ => lowered) ?_
          rintro _ inner (same | same | reached)
          · exact unchanged inner same
          · exact emptied inner same
          · exact lowered inner reached
      · apply Holds.bindGet
        intro read same
        have absent : read.store.get (low + raws.length) = none := by
          rw [RamStore.get, show read.store.cache = chain from same]
          exact BTreeMap.not_mem_iff_getElem?.mp stored
        rw [absent]
        exact Holds.throw unchanged

end Call

section File

variable {Raw : Type} {rows : HeaderMap Raw}

/-- Memory and file are in step, and the file holds `rows`. -/
structure Unwritten
    (rows : HeaderMap Raw)
    (inner : Inner (HeaderBackend Raw) Raw) : Prop where
  synced : Synced inner
  file : inner.store.backend.rows = rows

/-- The file holds `rows` still, or what memory holds. -/
def Saved
    (rows : HeaderMap Raw)
    (inner : Inner (HeaderBackend Raw) Raw) : Prop :=
  inner.store.backend.rows = rows ∨
    inner.store.backend.rows = inner.chain

private theorem insertRow_unwritten (height : Nat) (raw : Raw) :
    Keeps (Unwritten rows)
      (insertRow height raw : Locked (HeaderBackend Raw) Raw Unit) := by
  apply Holds.modify
  rintro inner ⟨⟨coherent, noFaults⟩, file⟩
  exact ⟨⟨coherent.insert height raw, noFaults⟩, file⟩

private theorem removeRows_unwritten (heights : List Nat) :
    Keeps (Unwritten rows)
      (removeRows heights : Locked (HeaderBackend Raw) Raw Unit) := by
  apply Holds.modify
  rintro inner ⟨⟨coherent, noFaults⟩, file⟩
  have sameFile := backend_removeAll inner.store heights
  refine ⟨⟨coherent.removeAll heights, ?_⟩, ?_⟩
  · rw [sameFile]
    exact noFaults
  · rw [sameFile]
    exact file

private theorem flushRows_saves :
    Holds (Unwritten rows)
      (flushRows : Locked (HeaderBackend Raw) Raw Unit)
      (fun _ => Saved rows) (fun _ => Saved rows) := by
  rintro inner ⟨synced, file⟩
  have kept := RamStore.cache_flush inner.store
  rcases flushed : inner.store.flush with ⟨outcome, store⟩
  rw [flushed] at kept
  cases outcome with
  | ok value =>
      simp only [flushRows, flushed]
      right
      exact (synced.coherent.rows_of_flush flushed).trans kept.symm
  | error reason =>
      simp only [flushRows, flushed]
      left
      rw [← file]
      exact (RamStore.unchanged_of_flush_error flushed).2.2.2

private theorem flush_and_settle
    (state : Inner (HeaderBackend Raw) Raw → HeaderValidationState) :
    Holds (Unwritten rows)
      (do
        flushRows
        let after ← get
        setValidationState (state after) :
        Locked (HeaderBackend Raw) Raw Unit)
      (fun _ => Saved rows) (fun _ => Saved rows) := by
  refine Holds.bind flushRows_saves (fun _ => ?_)
  apply Holds.bindGet
  intro after _
  exact Holds.modify (fun _ saved => saved)

private theorem holdCheckpoint_saves
    (btc : Bitcoin Raw)
    (checkpoint : Option Checkpoint)
    (height : Nat)
    (raw : Raw) :
    Holds (Unwritten rows)
      (holdCheckpoint btc checkpoint height raw :
        Locked (HeaderBackend Raw) Raw Unit)
      (fun _ => Unwritten rows) (fun _ => Saved rows) := by
  unfold holdCheckpoint
  apply Holds.ite
  · intro _
    exact Holds.pure (fun _ unwritten => unwritten)
  · intro _
    refine Holds.through (fun _ => Saved rows) ?_ (fun _ => ?_)
    · rintro inner ⟨synced, -⟩
      obtain ⟨after, cleared, emptied, fileEmptied⟩ :=
        clearInner_synced synced
      rw [cleared]
      exact .inr (fileEmptied.trans emptied.symm)
    · refine Holds.through (fun _ => Saved rows)
        (Holds.modify (fun _ saved => saved)) (fun _ => ?_)
      exact Holds.throw (fun _ saved => saved)

private theorem insertHeld_saves
    (btc : Bitcoin Raw)
    (checkpoint : Option Checkpoint)
    (inserted : List (Nat × Raw)) :
    Holds (Unwritten rows)
      (insertHeld btc checkpoint inserted :
        Locked (HeaderBackend Raw) Raw Unit)
      (fun _ => Unwritten rows) (fun _ => Saved rows) := by
  induction inserted with
  | nil =>
      exact Holds.pure (fun _ unwritten => unwritten)
  | cons row rest inductionHypothesis =>
      refine Holds.bind (holdCheckpoint_saves btc checkpoint row.1 row.2)
        (fun _ => ?_)
      refine Holds.bind
        (Holds.conseq (insertRow_unwritten row.1 row.2)
          (fun _ unwritten => unwritten) (fun _ _ unwritten => unwritten)
          (fun _ _ unwritten => .inl unwritten.file)) (fun _ => ?_)
      exact inductionHypothesis

private theorem appendRows_saves
    (btc : Bitcoin Raw)
    (network : Network)
    (checkpoint : Option Checkpoint)
    (now : Nat → Nat)
    (wasEmpty : Bool)
    (start index : Nat)
    (ancestors : List Header)
    (raws : List Raw) :
    Holds (Unwritten rows)
      (appendRows btc network checkpoint now wasEmpty start index ancestors
        raws : Locked (HeaderBackend Raw) Raw Unit)
      (fun _ => Unwritten rows) (fun _ => Saved rows) := by
  have unwritten :
      ∀ inner : Inner (HeaderBackend Raw) Raw, Unwritten rows inner →
        Saved rows inner :=
    fun _ unwritten => .inl unwritten.file
  induction raws generalizing index ancestors with
  | nil =>
      exact Holds.pure (fun _ unwritten => unwritten)
  | cons raw rest inductionHypothesis =>
      have afterVerdict :
          ∀ (height : Nat) (header : Header),
            Holds (Unwritten rows)
              (do
                holdCheckpoint btc checkpoint height raw
                insertRow height raw
                appendRows btc network checkpoint now wasEmpty start
                  (index + 1)
                  (slideWindow (retargetInterval btc network) ancestors
                    header) rest : Locked (HeaderBackend Raw) Raw Unit)
              (fun _ => Unwritten rows) (fun _ => Saved rows) := by
        intro height header
        refine Holds.bind (holdCheckpoint_saves btc checkpoint height raw)
          (fun _ => ?_)
        refine Holds.bind
          (Holds.conseq (insertRow_unwritten height raw)
            (fun _ unwritten => unwritten) (fun _ _ unwritten => unwritten)
            (fun _ => unwritten)) (fun _ => ?_)
        exact inductionHypothesis _ _
      refine Holds.step (addHeights_holds start index)
        (fun _ => unwritten) (fun height _ => ?_)
      refine Holds.step (decode_holds btc raw) (fun _ => unwritten)
        (fun header _ => ?_)
      apply Holds.ite
      · intro _
        apply Holds.ite
        · intro _
          refine Holds.through (fun _ _ => False)
            (Holds.throw unwritten)
            (fun _ _ impossible => impossible.elim)
        · intro _
          exact Holds.step (judge_holds _) (fun _ => unwritten)
            (fun _ _ => afterVerdict height header)
      · intro _
        exact Holds.step (judge_holds _) (fun _ => unwritten)
          (fun _ _ => afterVerdict height header)

theorem WriterOp.locked_saves
    (btc : Bitcoin Raw)
    (network : Network)
    (checkpoint : Option Checkpoint)
    (operation : WriterOp Raw) :
    Holds (Unwritten rows)
      (operation.locked btc network checkpoint :
        Locked (HeaderBackend Raw) Raw Unit)
      (fun _ => Saved rows) (fun _ => Saved rows) := by
  have unwritten :
      ∀ inner : Inner (HeaderBackend Raw) Raw, Unwritten rows inner →
        Saved rows inner :=
    fun _ unwritten => .inl unwritten.file
  cases operation with
  | append nowSecs height raw =>
      cases decoded : btc.deserialize raw with
      | none =>
          simp only [WriterOp.locked, decoded]
          exact Holds.throw unwritten
      | some incoming =>
          simp only [WriterOp.locked, decoded]
          apply Holds.bindGet
          intro read _
          refine Holds.step (judge_holds _) (fun _ => unwritten)
            (fun _ _ => ?_)
          refine Holds.bind
            (holdCheckpoint_saves btc checkpoint height raw) (fun _ => ?_)
          apply Holds.bindGet
          intro before _
          refine Holds.bind
            (Holds.conseq (insertRow_unwritten height raw)
              (fun _ unwritten => unwritten)
              (fun _ _ unwritten => unwritten) (fun _ => unwritten))
            (fun _ => ?_)
          exact flush_and_settle _
  | appendBatch now start raws =>
      refine Holds.ite (fun _ => Holds.pure unwritten) (fun _ => ?_)
      apply Holds.bindGet
      intro read _
      refine Holds.bind
        (appendRows_saves btc network checkpoint now _ start 0 _ raws)
        (fun _ => ?_)
      exact flush_and_settle (fun _ => .valid)
  | replaceBranch forkHeight branch =>
      apply Holds.bindGet
      intro read _
      refine Holds.bind
        (Holds.conseq (removeRows_unwritten _)
          (fun _ unwritten => unwritten) (fun _ _ unwritten => unwritten)
          (fun _ => unwritten)) (fun _ => ?_)
      refine Holds.bind (insertHeld_saves btc checkpoint _) (fun _ => ?_)
      exact flush_and_settle (fun _ => .valid)
  | prepend nowSecs low raws =>
      refine Holds.ite (fun _ => Holds.throw unwritten) (fun _ => ?_)
      apply Holds.bindGet
      intro read _
      cases read.store.get (low + raws.length) with
      | none =>
          exact Holds.throw unwritten
      | some floorRaw =>
          refine Holds.step (judge_holds _) (fun _ => unwritten)
            (fun _ _ => ?_)
          refine Holds.bind (insertHeld_saves btc checkpoint _)
            (fun _ => ?_)
          exact flushRows_saves

end File

/-- Calls one after the other, each under a token, errors ignored. -/
def callAll
    [PersistenceBackend Backend Nat Raw]
    (btc : Bitcoin Raw) :
    List (Nat × WriterOp Raw) → HeaderStore Backend Raw →
      HeaderStore Backend Raw
  | [], store => store
  | (token, operation) :: rest, store =>
      callAll btc rest (operation.apply btc token store).2

/-- Every call fits the chain it finds. -/
def AllFit
    [PersistenceBackend Backend Nat Raw]
    (btc : Bitcoin Raw)
    (later : Nat) :
    List (Nat × WriterOp Raw) → HeaderStore Backend Raw → Prop
  | [], _ => True
  | (token, operation) :: rest, store =>
      operation.Fits btc store.network later store.chain ∧
        AllFit btc later rest (operation.apply btc token store).2

/-- Memory and file would both survive a restart at `later`. -/
structure Survives
    (btc : Bitcoin Raw)
    (network : Network)
    (checkpoint : Option Checkpoint)
    (later : Nat)
    (store : HeaderStore (HeaderBackend Raw) Raw) : Prop where
  sameNetwork : store.network = network
  sameCheckpoint : store.checkpoint = checkpoint
  synced : Synced store.inner
  memory : Reloads btc network checkpoint later store.chain
  file :
    Reloads btc network checkpoint later store.inner.store.backend.rows

section Calls

variable {btc : Bitcoin Raw} {network : Network}
variable {checkpoint : Option Checkpoint} {later : Nat}

theorem Stable.locked
    [PersistenceBackend Backend Nat Raw]
    {kept : Inner Backend Raw → Prop}
    (stable : Stable (writtenBefore btc network checkpoint later) kept)
    (operation : WriterOp Raw) :
    Keeps kept (operation.locked btc network checkpoint) := by
  cases operation with
  | append nowSecs height raw =>
      cases decoded : btc.deserialize raw with
      | none =>
          simp only [WriterOp.locked, decoded]
          exact Keeps.throw
      | some incoming =>
          simp only [WriterOp.locked, decoded]
          exact stable.append height raw incoming nowSecs
  | appendBatch now start raws =>
      exact Holds.ite (fun _ => Keeps.pure)
        (fun _ => stable.appendBatch now start raws)
  | replaceBranch forkHeight branch =>
      exact stable.replaceBranch forkHeight branch
  | prepend nowSecs low raws =>
      exact Holds.ite (fun _ => Keeps.throw)
        (fun _ => stable.prepend nowSecs low _ raws)

variable {store : HeaderStore (HeaderBackend Raw) Raw}

theorem Survives.call
    (survives : Survives btc network checkpoint later store)
    (token : Nat)
    {operation : WriterOp Raw}
    (fits : operation.Fits btc network later store.chain) :
    Survives btc network checkpoint later
      (operation.apply btc token store).2 := by
  rcases operation.apply_eq btc token store with same | released
  · rw [same]
    exact survives
  rw [survives.sameNetwork, survives.sameCheckpoint] at released
  have synced :=
    ((stable_synced (writtenBefore btc network checkpoint later)).locked
      operation).finalState store.inner survives.synced
  have held :=
    ((stable_holdsThroughout
      (writtenBefore btc network checkpoint later)).locked
        operation).finalState store.inner survives.memory.held
  have replays :=
    (WriterOp.locked_replays checkpoint survives.memory.replays
      fits).finalState store.inner rfl
  have saved :=
    (operation.locked_saves btc network checkpoint).finalState store.inner
      ⟨survives.synced, rfl⟩
  have fileOf :
      ∀ inner : Inner (HeaderBackend Raw) Raw,
        Saved store.inner.store.backend.rows inner →
          Reloads btc network checkpoint later inner.chain →
          Reloads btc network checkpoint later
            inner.store.backend.rows := by
    rintro inner (kept | written) reloads
    · rw [kept]
      exact survives.file
    · rw [written]
      exact reloads
  rw [released]
  exact ⟨survives.sameNetwork, survives.sameCheckpoint, synced,
    ⟨replays, held⟩, fileOf _ saved ⟨replays, held⟩⟩

theorem Survives.callAll
    (survives : Survives btc network checkpoint later store)
    (calls : List (Nat × WriterOp Raw))
    (fit : AllFit btc later calls store) :
    Survives btc network checkpoint later (callAll btc calls store) := by
  induction calls generalizing store with
  | nil =>
      exact survives
  | cons call rest inductionHypothesis =>
      obtain ⟨fits, restFit⟩ := fit
      rw [survives.sameNetwork] at fits
      exact inductionHypothesis (survives.call call.1 fits) restFit

theorem survives_freshStore
    (btc : Bitcoin Raw)
    (network : Network)
    (checkpoint : Option Checkpoint)
    (opened later : Nat) :
    Survives btc network checkpoint later
      (freshStore btc opened network checkpoint) := by
  have serves := serves_freshStore btc opened network checkpoint
  refine ⟨serves.network, serves.checkpoint, serves.holding.synced, ?_,
    reloads_empty⟩
  rw [HeaderStore.chain, serves.holding.stores]
  exact reloads_empty

end Calls

/--
Whatever fitting calls built a store, a restart at a later clock accepts what
it holds in memory and what it left in its file: both checks pass, and the
reopened store holds exactly the persisted rows.
-/
theorem reload_accepts_fitting_writes
    (btc : Bitcoin Raw)
    (network : Network)
    (checkpoint : Option Checkpoint)
    (opened later : Nat)
    (calls : List (Nat × WriterOp Raw))
    (fit :
      AllFit btc later calls
        (freshStore btc opened network checkpoint)) :
    let store := callAll btc calls (freshStore btc opened network checkpoint)
    let file := store.inner.store.backend
    (sanityCheck btc network checkpoint store.chain = .ok () ∧
        replayValidate btc network store.chain later = .ok ()) ∧
      (sanityCheck btc network checkpoint file.rows = .ok () ∧
        replayValidate btc network file.rows later = .ok ()) ∧
      (HeaderStore.withCheckpoint btc later network checkpoint
          file).chain = file.rows ∧
      (HeaderStore.withCheckpoint btc later network checkpoint
          file).inner.validationState = .valid := by
  intro store file
  have survives :=
    (survives_freshStore btc network checkpoint opened later).callAll calls
      fit
  have sane : sanityCheck btc network checkpoint file.rows = .ok () :=
    survives.file.sanityCheck
  have replays : replayValidate btc network file.rows later = .ok () :=
    survives.file.replayValidate
  refine ⟨⟨survives.memory.sanityCheck, survives.memory.replayValidate⟩,
    ⟨sane, replays⟩, ?_⟩
  have loaded :
      (HeaderStore.load network checkpoint file :
        HeaderStore (HeaderBackend Raw) Raw).chain = file.rows := rfl
  unfold HeaderStore.withCheckpoint HeaderStore.startReplayValidation
  simp only [loaded]
  split
  · exact ⟨loaded, rfl⟩
  · rw [show (HeaderStore.load network checkpoint file).network = network
        from rfl,
      show (HeaderStore.load network checkpoint file).checkpoint =
        checkpoint from rfl, sane]
    simp only [replays]
    exact ⟨loaded, trivial⟩

/-- Two calls on a fresh regtest store, and the reload that follows. -/
theorem reload_accepts_two_appends :
    let calls : List (Nat × WriterOp Header) :=
      [(0, .append 1000 0 (datedHeader id 0)),
        (0, .appendBatch (fun _ => 1000) 1 [datedHeader id 1])]
    let store :=
      callAll Bitcoin.sample calls
        (freshStore Bitcoin.sample 1000 .regtest none)
    store.chain.size = 2 ∧
      replayValidate Bitcoin.sample .regtest store.chain 2000 = .ok () := by
  intro calls store
  have fit :
      AllFit Bitcoin.sample 2000 calls
        (freshStore Bitcoin.sample 1000 .regtest none) := by
    refine ⟨⟨by decide, ?_⟩, ⟨fun _ => Nat.le_add_left 1000 1000, ?_⟩,
      trivial⟩
    · intro tip last
      have none :
          (freshStore Bitcoin.sample 1000 .regtest none).chain.lastKey? =
            none := by
        decide +kernel
      rw [none] at last
      cases last
    · intro tip last
      have zero :
          ((WriterOp.append 1000 0 (datedHeader id 0)).apply
            Bitcoin.sample 0
            (freshStore Bitcoin.sample 1000 .regtest none)).2.chain.lastKey? =
              some 0 := by
        decide +kernel
      rw [zero] at last
      cases last
      decide
  exact ⟨by decide +kernel,
    (reload_accepts_fitting_writes Bitcoin.sample .regtest none 1000 2000
      calls fit).1.2⟩

/-- Times whose median below a height depends on how far down one looks. -/
def redatedTime (height : Nat) : Nat :=
  if height ≤ 2010 then 600 * height
  else if height ≤ 2015 then 600 * height + 600
  else if height = 2018 then 1211000
  else if height = 2019 then 1206003
  else 1206001 + (height - 2016)

/-- Anchor at the second boundary, then extend down to genesis. -/
def redatedCalls : List (Nat × WriterOp Header) :=
  [(0, .appendBatch (fun _ => 1300000) 2016
      ((List.range' 2016 (1 + 3)).map (datedHeader redatedTime))),
    (0, .prepend 1300000 0
      ((List.range' 0 2016).map (datedHeader redatedTime)))]

private theorem redated_anchored
    {height : Nat}
    (above : 2016 ≤ height)
    (below : height < 2016 + (1 + 3)) :
    RowPasses Bitcoin.sample .bitcoin none (fun now => now = 1300000)
      (datedHeader redatedTime) (datedHeader redatedTime) 2016 height := by
  refine ⟨rfl, ?_, rfl⟩
  rintro _ rfl
  interval_cases height <;> decide +kernel

private theorem redated_history
    {height : Nat}
    (below : height < 0 + (2016 + 1)) :
    RowPasses Bitcoin.sample .bitcoin none (fun now => now = 1300000)
      (datedHeader redatedTime) (datedHeader redatedTime) 0 height := by
  refine ⟨rfl, ?_, rfl⟩
  rintro _ rfl
  by_cases atZero : height = 0
  · subst atZero
    decide +kernel
  · have consensus :
        validateAppend Bitcoin.sample .bitcoin
          (window (datedHeader redatedTime) 0 height height) height
          (datedHeader redatedTime height) 1300000 = .ok () := by
      refine datedHeader_validates (by omega) (by omega) (by decide) ?_ ?_
      · simp only [redatedTime]
        split_ifs <;> omega
      · by_cases last : height = 2016
        · subst last
          decide +kernel
        · apply median_lt_of_increasing (by omega)
          intro other before
          simp only [redatedTime]
          split_ifs <;> omega
    rw [replayRow, if_neg atZero, if_pos (by omega),
      validateAppend_window (by decide) (by omega) consensus]
    rw [validateAppend_eq_ok_iff atZero] at consensus
    obtain ⟨-, -, -, -, -, -, late⟩ := consensus
    rwa [checkMtp_window (by omega) (by omega)] at late

/-- Both calls go through, and memory and file end with the whole chain. -/
private theorem redated_reached :
    ∃ store,
      callAll Bitcoin.sample redatedCalls
          (freshStore Bitcoin.sample 1300000 .bitcoin none) = store ∧
        store.chain = BTreeMap.tabulate (datedHeader redatedTime) 0 2020 ∧
        store.inner.store.backend.rows =
          BTreeMap.tabulate (datedHeader redatedTime) 0 2020 := by
  have anchoring :
      Holds (Holding ∅)
        (appendBatchLocked Bitcoin.sample .bitcoin none (fun _ => 1300000)
          2016 ((List.range' 2016 (1 + 3)).map (datedHeader redatedTime)))
        (fun _ =>
          Holding
            (BTreeMap.tabulate (datedHeader redatedTime) 2016 (1 + 3)))
        (fun _ _ => False) :=
    appendBatchLocked_anchors 3 (fun _ => by rfl) (by decide) (by decide)
      (fun _ => redated_anchored)
  obtain ⟨anchored, appended, serves⟩ :=
    withWriter_accepts
      (serves_freshStore Bitcoin.sample 1300000 .bitcoin none) anchoring
  have lowering :=
    @prependLocked_accepts _ Bitcoin.sample .bitcoin none
      (fun now => now = 1300000) (datedHeader redatedTime)
      (datedHeader redatedTime) 0 1300000 2016 3 rfl
      (fun _ _ => redated_history)
  rw [Nat.zero_add, Nat.add_comm 3 1] at lowering
  obtain ⟨inner, prepended, holding, written⟩ :=
    withWriter_returns serves lowering
  have firstCall :
      (WriterOp.appendBatch (fun _ => 1300000) 2016
        ((List.range' 2016 (1 + 3)).map (datedHeader redatedTime))).apply
          Bitcoin.sample 0
          (freshStore Bitcoin.sample 1300000 .bitcoin none) =
        (.ok (), anchored) := appended
  have secondCall :
      (WriterOp.prepend 1300000 0
        ((List.range' 0 2016).map (datedHeader redatedTime))).apply
          Bitcoin.sample 0 anchored =
        (.ok (), anchored.release inner) := by
    have fits :
        ¬ 0 + ((List.range' 0 2016).map
            (datedHeader redatedTime)).length > u32Max := by
      simp [u32Max]
    rw [WriterOp.apply, HeaderStore.prepend, if_neg fits,
      serves.network, serves.checkpoint, List.length_map,
      List.length_range', Nat.zero_add]
    exact prepended
  refine ⟨anchored.release inner, ?_, holding.stores, written⟩
  rw [redatedCalls, callAll, firstCall, callAll, secondCall, callAll]

/--
The floor is lowered to genesis without an error, and the restart then refuses
the highest header and wipes the chain.
-/
theorem redated_chain_wiped :
    let store :=
      callAll Bitcoin.sample redatedCalls
        (freshStore Bitcoin.sample 1300000 .bitcoin none)
    let file := store.inner.store.backend
    store.chain = BTreeMap.tabulate (datedHeader redatedTime) 0 2020 ∧
      file.rows = store.chain ∧
      replayValidate Bitcoin.sample .bitcoin store.chain 1300000 ≠ .ok () ∧
      (HeaderStore.withCheckpoint Bitcoin.sample 1300000 .bitcoin none
        file).chain = ∅ := by
  obtain ⟨store, reached, chain, rows⟩ := redated_reached
  rw [reached]
  have refused :
      replayValidate Bitcoin.sample .bitcoin store.chain 1300000 ≠
        .ok () := by
    intro accepted
    rw [chain, replayValidate_eq_ok_iff
      (BTreeMap.covers_tabulate _ 0 2019) (by decide)] at accepted
    obtain ⟨header, decoded, replays⟩ :=
      accepted 2019 (datedHeader redatedTime 2019)
        (by rw [BTreeMap.getElem?_tabulate, if_pos (by decide)])
    cases decoded
    rw [decodeAncestors_tabulate Bitcoin.sample (datedHeader redatedTime)
        (datedHeader redatedTime) (retargetInterval_pos _ _) (by decide)
        (by decide) (fun _ _ _ => rfl),
      replayRow, if_neg (by decide), if_pos (by decide),
      validateAppend_eq_ok_iff (by decide)] at replays
    obtain ⟨-, -, -, -, -, -, late⟩ := replays
    rw [checkMtp_window (by decide) (by decide)] at late
    exact absurd late (by decide +kernel)
  refine ⟨chain, rows.trans chain.symm, refused, ?_⟩
  rcases chain_withCheckpoint Bitcoin.sample 1300000 .bitcoin none
      store.inner.store.backend with empty | ⟨-, -, replayed⟩
  · exact empty
  · rw [show PersistenceBackend.rows store.inner.store.backend =
      store.chain from rows.trans chain.symm] at replayed
    exact (refused replayed).elim

end Bwk
