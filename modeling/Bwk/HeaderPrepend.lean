import Bwk.HeaderInvariant
import Bwk.HeaderCompleteness

namespace Bwk

/-!
# Lowering the floor, all or nothing

`prepend` replays the offered headers topped by one stored header, and only
then inserts the rows below that header and flushes.  The stored header need
not be the floor: an offer that reaches into the stored chain is linked to a
row above the floor, and its overlap is forced to be the stored one, hash by
hash, from the top down.
-/

section Offer

variable {Raw : Type}

/-- `after` is `chain` with the offered headers below its old floor. -/
structure ExtendedDown
    (btc : Bitcoin Raw)
    (network : Network)
    (chain after : HeaderMap Raw)
    (floor high low : Nat)
    (raws : List Raw) : Prop where
  covers : after.Covers (min low floor) high
  kept : ∀ height : Nat, floor ≤ height → after[height]? = chain[height]?
  offered :
    ∀ height : Nat, low ≤ height → height < floor →
      after[height]? = raws[height - low]?
  works :
    ∀ height : Nat, low ≤ height → height < floor →
      ∃ header,
        headerAt btc (fun below => after[below]?) height = some header ∧
          checkPow btc (Params.new btc network) header = .ok ()
  links :
    ∀ height : Nat, low ≤ height → height < floor →
      ∃ prev header,
        headerAt btc (fun below => after[below]?) height = some prev ∧
          headerAt btc (fun below => after[below]?) (height + 1) =
            some header ∧
          header.prevBlockhash = btc.blockHash prev

/-- The header at `floor` has the difficulty its stored past asks for. -/
def SeamRetargets
    (btc : Bitcoin Raw)
    (network : Network)
    (chain : HeaderMap Raw)
    (floor : Nat) : Prop :=
  ∀ (below : Nat) last old,
    below + 1 = floor →
    headerAt btc (fun height => chain[height]?) below = some last →
    headerAt btc (fun height => chain[height]?) floor = some old →
      checkRetarget btc (Params.new btc network)
        (decodeAncestors btc chain floor (retargetInterval btc network))
        floor last old = .ok ()

/--
Extended in memory and in the file, with the seam held to the difficulty rule
where `judged` says so; or failed with nothing changed, or with everything
refused.
-/
def AllOrNothing
    (btc : Bitcoin Raw)
    (judged : Prop)
    (store : HeaderStore (HeaderBackend Raw) Raw)
    (floor high low : Nat)
    (raws : List Raw) :
    Except Abort Unit × HeaderStore (HeaderBackend Raw) Raw → Prop
  | (.ok (), after) =>
      ExtendedDown btc store.network store.chain after.chain floor high low
          raws ∧
        after.inner.store.backend.rows = after.chain ∧
        (judged → SeamRetargets btc store.network after.chain floor)
  | (.error reason, after) =>
      (after.chain = store.chain ∧
        after.inner.store.backend.rows = store.inner.store.backend.rows) ∨
      (reason = .error .checkpoint ∧ after.chain = ∅ ∧
        after.inner.store.backend.rows = ∅)

/-- No offered row shares its block hash with another stored one. -/
def DistinctHashes
    (btc : Bitcoin Raw)
    (chain : HeaderMap Raw)
    (raws : List Raw) : Prop :=
  ∀ offered ∈ raws, ∀ (height : Nat) stored, chain[height]? = some stored →
    ∀ header other,
      btc.deserialize offered = some header →
      btc.deserialize stored = some other →
      btc.blockHash header = btc.blockHash other →
        offered = stored

theorem getElem?_prependRange
    (low : Nat)
    (raws : List Raw)
    (topRaw : Raw)
    (height : Nat) :
    (prependRange low (low + raws.length) raws topRaw)[height]? =
      if height = low + raws.length then
        some topRaw
      else if low ≤ height then
        raws[height - low]?
      else
        none := by
  have distinct :
      (((List.range' low raws.length).zip raws).map Prod.fst).Nodup := by
    rw [List.map_fst_zip (by simp)]
    exact List.nodup_range'
  rw [prependRange, BTreeMap.getElem?_insert_eq]
  by_cases atTop : low + raws.length = height
  · rw [if_pos atTop, if_pos atTop.symm]
  rw [if_neg atTop, if_neg (Ne.symm atTop)]
  apply Option.ext
  intro raw
  rw [BTreeMap.getElem?_insertAll_of_nodup ∅ distinct height raw]
  simp only [Std.ExtTreeMap.getElem?_empty, reduceCtorEq, and_false,
    or_false, List.mem_iff_getElem?, List.getElem?_zip_eq_some]
  constructor
  · rintro ⟨index, counted, found⟩
    obtain ⟨inside, same⟩ := List.getElem?_eq_some_iff.mp counted
    rw [List.getElem_range'] at same
    rw [if_pos (by omega), show height - low = index by omega]
    exact found
  · intro found
    split at found
    · rename_i above
      refine ⟨height - low, ?_, found⟩
      have inside := (List.getElem?_eq_some_iff.mp found).1
      rw [List.getElem?_range' (by omega)]
      congr 1
      omega
    · cases found

theorem mem_of_prependRange
    {low height : Nat}
    {raws : List Raw}
    {topRaw raw : Raw}
    (under : height < low + raws.length)
    (found :
      (prependRange low (low + raws.length) raws topRaw)[height]? =
        some raw) :
    raw ∈ raws := by
  rw [getElem?_prependRange, if_neg (by omega)] at found
  split at found
  · exact List.mem_of_getElem? found
  · cases found

variable {btc : Bitcoin Raw} {network : Network}

theorem rows_of_replayed
    {range : HeaderMap Raw}
    {low top nowSecs : Nat}
    (covers : range.Covers low top)
    (ordered : low ≤ top)
    (replays : replayValidate btc network range nowSecs = .ok ()) :
    ∀ (height : Nat) raw, range[height]? = some raw →
      ∃ header,
        btc.deserialize raw = some header ∧
          RowValid btc network range low height header := by
  intro height raw present
  obtain ⟨header, decoded, judged⟩ :=
    (replayValidate_eq_ok_iff covers ordered).mp replays height raw present
  exact ⟨header, decoded, rowValid_of_replays judged⟩

variable {backend : HeaderBackend Raw} (checkpoint : Option Checkpoint)
variable {raws : List Raw} (chain : HeaderMap Raw)

theorem overlap_agrees
    {chain range : HeaderMap Raw}
    {floor high low top : Nat}
    (stored : RangeOf btc network (RowValid btc network) chain floor high)
    (distinct : DistinctHashes btc chain raws)
    (covers : range.Covers low top)
    (rows :
      ∀ (height : Nat) raw, range[height]? = some raw →
        ∃ header,
          btc.deserialize raw = some header ∧
            RowValid btc network range low height header)
    (fromOffer :
      ∀ (height : Nat) raw, height < top → range[height]? = some raw →
        raw ∈ raws)
    (sameTop : range[top]? = chain[top]?) :
    ∀ height : Nat, low ≤ height → floor ≤ height → height ≤ top →
      range[height]? = chain[height]? := by
  -- From the top down: equal headers name equal parents.
  suffices descending :
      ∀ steps height : Nat, height + steps = top → low ≤ height →
        floor ≤ height → range[height]? = chain[height]? by
    intro height above inChain below
    exact descending (top - height) height (by omega) above inChain
  intro steps
  induction steps with
  | zero =>
      rintro height atTop _ _
      rw [show height = top by omega]
      exact sameTop
  | succ steps inductionHypothesis =>
      intro height distance above inChain
      have sameChild :=
        inductionHypothesis (height + 1) (by omega) (by omega) (by omega)
      obtain ⟨child, childPresent⟩ :=
        BTreeMap.mem_iff_getElem?.mp
          ((covers (height + 1)).mpr (by omega))
      obtain ⟨header, decoded, inRange⟩ := rows _ _ childPresent
      obtain ⟨same, sameDecoded, inStored⟩ :=
        stored.rows _ _ (sameChild ▸ childPresent)
      obtain rfl : header = same := by
        rw [decoded] at sameDecoded
        exact Option.some.inj sameDecoded
      obtain ⟨prev, parent, linked, -⟩ := inRange.follows (by omega)
      obtain ⟨prev', parent', linked', -⟩ := inStored.follows (by omega)
      rw [checkLinkage_eq_ok_iff] at linked linked'
      obtain ⟨raw, present, parentDecoded⟩ :=
        Option.bind_eq_some_iff.mp parent
      obtain ⟨raw', present', parentDecoded'⟩ :=
        Option.bind_eq_some_iff.mp parent'
      rw [Nat.add_sub_cancel] at present present'
      have sameRow : raw = raw' :=
        distinct raw (fromOffer height raw (by omega) present) height raw'
          present' prev prev' parentDecoded parentDecoded'
          (linked.symm.trans linked')
      exact present.trans (sameRow ▸ present'.symm)

/--
Inserting the range below its top extends the stored chain down, and the old
floor is judged on the new past where the network has a difficulty rule.
-/
theorem extendedDown_of_replayed
    {chain after range : HeaderMap Raw}
    {floor high low nowSecs : Nat}
    {topRaw : Raw}
    (stored : RangeOf btc network (RowValid btc network) chain floor high)
    (distinct : DistinctHashes btc chain raws)
    (shape : range = prependRange low (low + raws.length) raws topRaw)
    (topPresent : chain[low + raws.length]? = some topRaw)
    (replays : replayValidate btc network range nowSecs = .ok ())
    (inserted :
      ∀ height : Nat,
        after[height]? =
          if low ≤ height ∧ height < low + raws.length then
            range[height]?
          else
            chain[height]?) :
    ExtendedDown btc network chain after floor high low raws ∧
      (network.relaxesDifficulty = false →
        SeamRetargets btc network after floor) := by
  have topStored :=
    (stored.covers (low + raws.length)).mp
      (BTreeMap.mem_iff_getElem?.mpr ⟨topRaw, topPresent⟩)
  have covers : range.Covers low (low + raws.length) := by
    rw [shape]
    exact prependRange_covers low raws topRaw
  have rows := rows_of_replayed covers (by omega) replays
  have sameTop :
      range[low + raws.length]? = chain[low + raws.length]? := by
    rw [topPresent, shape, getElem?_prependRange, if_pos rfl]
  have overlap := overlap_agrees stored distinct covers rows
    (fun height raw under present => by
      rw [shape] at present
      exact mem_of_prependRange under present)
    sameTop
  have kept :
      ∀ height : Nat, floor ≤ height → after[height]? = chain[height]? := by
    intro height inChain
    rw [inserted]
    split
    · exact overlap height (by omega) inChain (by omega)
    · rfl
  -- Up to the top of the range the new chain is the range.
  have replayed :
      low ≤ floor → ∀ height : Nat, height ≤ low + raws.length →
        after[height]? = range[height]? := by
    intro lowered height under
    rw [inserted]
    split
    · rfl
    · rename_i outside
      by_cases atTop : height = low + raws.length
      · rw [atTop, sameTop]
      · have below : height < low := by omega
        have inChain : height ∉ chain := by
          rw [stored.covers]
          omega
        have inRange : height ∉ range := by
          rw [covers]
          omega
        rw [BTreeMap.not_mem_iff_getElem?.mp inChain,
          BTreeMap.not_mem_iff_getElem?.mp inRange]
  have placed :
      low ≤ floor → ∀ height : Nat, low ≤ height → height ≤ floor →
        ∃ header,
          headerAt btc (fun below => after[below]?) height = some header ∧
            RowValid btc network after low height header := by
    intro lowered height above below
    obtain ⟨raw, present⟩ :=
      BTreeMap.mem_iff_getElem?.mp ((covers height).mpr (by omega))
    obtain ⟨header, decoded, valid⟩ := rows height raw present
    refine ⟨header, ?_, valid.congr (fun under lower =>
      (replayed lowered under (by omega)).symm)⟩
    rw [headerAt, replayed lowered height (by omega), present]
    exact decoded
  refine ⟨⟨?_, kept, ?_, ?_, ?_⟩, ?_⟩
  · intro height
    rw [BTreeMap.mem_iff_getElem?, inserted]
    have inChain := stored.covers height
    have inRange := covers height
    rw [BTreeMap.mem_iff_getElem?] at inChain inRange
    split
    · rw [inRange]
      omega
    · rw [inChain]
      omega
  · intro height above below
    rw [replayed (by omega) height (by omega), shape, getElem?_prependRange,
      if_neg (by omega), if_pos above]
  · intro height above below
    obtain ⟨header, present, valid⟩ :=
      placed (by omega) height above (by omega)
    exact ⟨header, present, valid.work⟩
  · intro height above below
    obtain ⟨header, present, valid⟩ :=
      placed (by omega) (height + 1) (by omega) (by omega)
    obtain ⟨prev, parent, linked, -⟩ := valid.follows (by omega)
    exact ⟨prev, header, parent, present, checkLinkage_eq_ok_iff.mp linked⟩
  · intro judged below last old adjacent lastPresent oldPresent
    obtain ⟨raw, found, -⟩ := Option.bind_eq_some_iff.mp lastPresent
    have lastStored : after[below]? = some raw := found
    -- A header below the old floor is an offered one.
    have lowered : low < floor := by
      by_contra notLowered
      rw [inserted, if_neg (by omega)] at lastStored
      have inChain := (stored.covers below).mp
        (BTreeMap.mem_iff_getElem?.mpr ⟨raw, lastStored⟩)
      omega
    obtain ⟨header, present, valid⟩ :=
      placed (by omega) floor (by omega) (Nat.le_refl floor)
    obtain ⟨prev, parent, -, retargets⟩ := valid.follows lowered
    rw [present, Option.some.injEq] at oldPresent
    rw [show floor - 1 = below by omega, lastPresent,
      Option.some.injEq] at parent
    rw [← oldPresent, parent]
    exact retargets judged

/-- Rows went into memory only: the file is as `backend` has it. -/
structure Unflushed
    (backend : HeaderBackend Raw)
    (chain : HeaderMap Raw)
    (inner : Inner (HeaderBackend Raw) Raw) : Prop where
  coherent : inner.store.Coherent
  stores : inner.chain = chain
  sameBackend : inner.store.backend = backend

/-- The disk failed, or the chain was refused in memory and in the file. -/
def FailedOrRefused
    (backend : HeaderBackend Raw)
    (reason : Abort)
    (inner : Inner (HeaderBackend Raw) Raw) : Prop :=
  (nextWrite backend.faults).1 = true ∨
    (reason = .error .checkpoint ∧ inner.chain = ∅ ∧
      inner.store.backend.rows = ∅)

theorem holdCheckpoint_unflushed
    (height : Nat)
    (raw : Raw) :
    Holds (Unflushed backend chain)
      (holdCheckpoint btc checkpoint height raw :
        Locked (HeaderBackend Raw) Raw Unit)
      (fun _ => Unflushed backend chain) (FailedOrRefused backend) := by
  unfold holdCheckpoint
  refine Holds.ite (fun _ => Holds.pure (fun _ unflushed => unflushed))
    (fun _ => ?_)
  intro inner unflushed
  cases failing : (nextWrite backend.faults).1 with
  | true =>
      cases cleared :
          (clearInner : Locked (HeaderBackend Raw) Raw Unit) inner with
      | ok value emptied =>
          rw [bind_apply_ok cleared]
          exact .inl failing
      | error reason emptied =>
          rw [bind_apply_error cleared]
          exact .inl failing
  | false =>
      obtain ⟨emptied, cleared, memory, file⟩ :=
        clearInner_ok unflushed.coherent
          (unflushed.sameBackend ▸ failing)
      rw [bind_apply_ok cleared]
      exact .inr ⟨rfl, memory, file⟩

theorem insertHeld_unflushed
    (rows : List (Nat × Raw)) :
    Holds (Unflushed backend chain)
      (insertHeld btc checkpoint rows :
        Locked (HeaderBackend Raw) Raw Unit)
      (fun _ => Unflushed backend (chain.insertAll rows))
      (FailedOrRefused backend) := by
  induction rows generalizing chain with
  | nil =>
      exact Holds.pure (fun _ unflushed => unflushed)
  | cons row rest inductionHypothesis =>
      refine Holds.bind
        (holdCheckpoint_unflushed checkpoint chain row.1 row.2)
        (fun _ => ?_)
      refine Holds.through
        (fun _ => Unflushed backend (chain.insert row.1 row.2)) ?_
        (fun _ => inductionHypothesis (chain.insert row.1 row.2))
      apply Holds.modify
      rintro inner ⟨coherent, rfl, sameBackend⟩
      exact ⟨coherent.insert row.1 row.2, rfl, sameBackend⟩

theorem flushRows_unflushed
    {chain : HeaderMap Raw}
    {low high : Nat}
    (covers : chain.Covers low high)
    (ordered : low ≤ high) :
    Holds (Unflushed backend chain)
      (flushRows : Locked (HeaderBackend Raw) Raw Unit)
      (fun _ inner =>
        inner.chain = chain ∧ inner.store.backend.rows = chain)
      (fun _ _ => (nextWrite backend.faults).1 = true) := by
  rintro inner ⟨coherent, rfl, rfl⟩
  cases failing : (nextWrite inner.store.backend.faults).1 with
  | false =>
      obtain ⟨after, flushed, kept, file⟩ :=
        flushRows_ok coherent failing covers ordered
      rw [flushed]
      exact ⟨kept, file⟩
  | true =>
      unfold flushRows
      have kept : inner.store.flush.2.cache = inner.chain :=
        RamStore.cache_flush inner.store
      rcases flushed : inner.store.flush with ⟨outcome, store⟩
      rw [flushed] at kept
      cases outcome with
      | ok value =>
          exact ⟨kept, coherent.rows_of_flush flushed⟩
      | error reason =>
          rfl

theorem prependLocked_outcome
    {start : Inner (HeaderBackend Raw) Raw}
    {floor high : Nat}
    (nowSecs low : Nat)
    (raws : List Raw)
    (stored :
      RangeOf btc network (RowValid btc network) start.chain floor high)
    (coherent : start.store.Coherent)
    (distinct : DistinctHashes btc start.chain raws) :
    Holds (fun inner => inner = start)
      (prependLocked btc network checkpoint nowSecs low (low + raws.length)
        raws : Locked (HeaderBackend Raw) Raw Unit)
      (fun _ inner =>
        ExtendedDown btc network start.chain inner.chain floor high low
            raws ∧
          inner.store.backend.rows = inner.chain ∧
          (network.relaxesDifficulty = false →
            SeamRetargets btc network inner.chain floor))
      (fun reason inner =>
        inner = start ∨ FailedOrRefused start.store.backend reason inner)
    := by
  apply Holds.bindGet
  rintro read rfl
  cases found : read.store.get (low + raws.length) with
  | none =>
      exact Holds.throw (fun _ same => .inl same)
  | some topRaw =>
      have topPresent : read.chain[low + raws.length]? = some topRaw :=
        found
      refine Holds.step (judge_holds _) (fun _ _ same => .inl same) ?_
      intro _ replays
      let rows :=
        (prependRange low (low + raws.length) raws topRaw).toList.filter
          (fun row => row.1 < low + raws.length)
      have listed :
          ∀ row, row ∈ rows ↔
            (prependRange low (low + raws.length) raws topRaw)[row.1]? =
                some row.2 ∧
              row.1 < low + raws.length := by
        intro row
        rw [List.mem_filter, ← Prod.mk.eta (p := row),
          Std.ExtTreeMap.mem_toList_iff_getElem?_eq_some]
        simp
      have inserted :
          ∀ height : Nat,
            (read.chain.insertAll rows)[height]? =
              if low ≤ height ∧ height < low + raws.length then
                (prependRange low (low + raws.length) raws topRaw)[height]?
              else
                read.chain[height]? := by
        intro height
        rw [BTreeMap.getElem?_insertAll_of_source read.chain
          (fun row member => ((listed row).mp member).1)]
        congr 1
        rw [eq_iff_iff]
        constructor
        · intro member
          obtain ⟨row, isRow, rfl⟩ := List.mem_map.mp member
          obtain ⟨present, under⟩ := (listed row).mp isRow
          exact ⟨((prependRange_covers low raws topRaw row.1).mp
            (BTreeMap.mem_iff_getElem?.mpr ⟨_, present⟩)).1, under⟩
        · rintro ⟨above, under⟩
          obtain ⟨raw, present⟩ :=
            BTreeMap.mem_iff_getElem?.mp
              ((prependRange_covers low raws topRaw height).mpr (by omega))
          exact List.mem_map.mpr
            ⟨(height, raw), (listed _).mpr ⟨present, under⟩, rfl⟩
      have extended :=
        extendedDown_of_replayed stored distinct rfl topPresent replays
          inserted
      have ordered := stored.ordered
      refine Holds.through
        (fun _ => Unflushed read.store.backend (read.chain.insertAll rows))
        ?_ (fun _ => ?_)
      · exact Holds.conseq
          (insertHeld_unflushed checkpoint read.chain rows)
          (fun _ same => ⟨same ▸ coherent, same ▸ rfl, same ▸ rfl⟩)
          (fun _ _ unflushed => unflushed)
          (fun _ _ refused => .inr refused)
      · refine Holds.conseq
          (flushRows_unflushed extended.1.covers (by omega))
          (fun _ unflushed => unflushed) ?_
          (fun _ _ failing => .inr (.inl failing))
        rintro _ inner ⟨memory, file⟩
        rw [memory]
        exact ⟨extended.1, file, extended.2⟩

/--
Whatever is offered to `prepend` at whatever height, a superseded worker
changes nothing, and the authoritative one extends the stored chain down,
keeps it, or refuses it whole.  Only a disk failure is left open.
-/
theorem prepend_all_or_nothing
    {store : HeaderStore (HeaderBackend Raw) Raw}
    {floor high : Nat}
    (stored :
      RangeOf btc store.network (RowValid btc store.network) store.chain
        floor high)
    (coherent : store.inner.store.Coherent)
    (nowSecs token low : Nat)
    (raws : List Raw)
    (distinct : DistinctHashes btc store.chain raws) :
    (store.writerToken ≠ token ∧
      (store.prepend btc nowSecs token low raws).2 = store) ∨
    ((nextWrite store.inner.store.backend.faults).1 = true ∧
      ∃ reason,
        (store.prepend btc nowSecs token low raws).1 = .error reason) ∨
    AllOrNothing btc (store.network.relaxesDifficulty = false) store floor
      high low raws (store.prepend btc nowSecs token low raws) := by
  unfold HeaderStore.prepend
  split
  · exact .inr (.inr (.inl ⟨rfl, rfl⟩))
  unfold HeaderStore.withWriter
  split
  · rename_i superseded
    exact .inl ⟨superseded, rfl⟩
  have reached :=
    prependLocked_outcome store.checkpoint nowSecs low raws stored coherent
      distinct store.inner rfl
  cases outcome :
      prependLocked btc store.network store.checkpoint nowSecs low
        (low + raws.length) raws store.inner with
  | ok value inner =>
      rw [outcome] at reached
      exact .inr (.inr reached)
  | error reason inner =>
      rw [outcome] at reached
      rcases reached with same | failing | refused
      · subst same
        exact .inr (.inr (.inl ⟨rfl, rfl⟩))
      · exact .inr (.inl ⟨failing, reason, rfl⟩)
      · exact .inr (.inr (.inr refused))

end Offer

/-- Ten-minute blocks, whose first period is short of two weeks. -/
def hastyHeader : Nat → Header :=
  datedHeader (fun height => 600 * height)

/-- A testnet store that starts at the first retarget boundary. -/
def hastyStore : HeaderStore (HeaderBackend Header) Header :=
  { HeaderStore.load .testnet none
      { rows := BTreeMap.tabulate hastyHeader 2016 1, faults := [] :
        HeaderBackend Header } with
    inner :=
      { store :=
          RamStore.open_
            { rows := BTreeMap.tabulate hastyHeader 2016 1, faults := [] }
        validationState := .valid } }

def hastyPeriod : List Header :=
  (List.range' 0 2016).map hastyHeader

theorem checkPow_hastyHeader
    {height : Nat}
    (below : height ≤ 2016) :
    checkPow Bitcoin.sample (Params.new Bitcoin.sample .testnet)
      (hastyHeader height) = .ok () := by
  have met : height ≤ 1000000 := by omega
  simp [checkPow, validatePow, Bitcoin.sample, hastyHeader, datedHeader,
    Params.new, met]

theorem rowPasses_hastyHeader
    {height : Nat}
    (below : height ≤ 2016) :
    RowPasses Bitcoin.sample .testnet none (fun nowSecs => 1300000 ≤ nowSecs)
      hastyHeader hastyHeader 0 height := by
  refine ⟨rfl, ?_, rfl⟩
  intro nowSecs clock
  have cap : checkFutureCap (hastyHeader height) nowSecs = .ok () := by
    rw [checkFutureCap, if_neg]
    simp only [hastyHeader, datedHeader]
    omega
  have work := checkPow_hastyHeader below
  unfold replayRow
  by_cases atZero : height = 0
  · subst atZero
    rw [if_pos rfl, validateAppend_zero_eq_ok_iff]
    exact ⟨cap, by decide, work⟩
  have interval := retargetInterval_pos Bitcoin.sample .testnet
  have wide :
      height - retargetInterval Bitcoin.sample .testnet ≤
        height - mtpWindow := by
    have atLeast :
        mtpWindow ≤ retargetInterval Bitcoin.sample .testnet := by decide
    omega
  rw [if_neg atZero, if_pos (by omega), validateAppend_eq_ok_iff atZero,
    getLast?_window (by omega) interval, checkMtp_window (by omega) wide]
  refine ⟨cap, _, rfl, work, ?_, by simp [Network.relaxesDifficulty],
    .inr ?_⟩
  · simp [hastyHeader, datedHeader, Bitcoin.sample]
  · exact median_lt_of_increasing (by omega) (fun other before => by omega)

theorem stored_hastyStore :
    RangeOf Bitcoin.sample hastyStore.network
      (RowValid Bitcoin.sample hastyStore.network) hastyStore.chain 2016
      2016 := by
  refine ⟨Nat.le_refl _, BTreeMap.covers_tabulate hastyHeader 2016 0,
    by decide, ?_⟩
  intro height raw present
  have here : (BTreeMap.tabulate hastyHeader 2016 1)[height]? = some raw :=
    present
  rw [BTreeMap.getElem?_tabulate] at here
  split at here
  · obtain rfl : height = 2016 := by omega
    cases here
    exact ⟨hastyHeader 2016, rfl, checkPow_hastyHeader (Nat.le_refl _),
      fun atZero => by omega, fun above => by omega⟩
  · cases here

theorem distinct_hastyPeriod :
    DistinctHashes Bitcoin.sample hastyStore.chain hastyPeriod := by
  intro offered member height stored present header other decoded
    storedDecoded sameHash
  obtain ⟨below, inPeriod, rfl⟩ := List.mem_map.mp member
  have here :
      (BTreeMap.tabulate hastyHeader 2016 1)[height]? = some stored :=
    present
  rw [BTreeMap.getElem?_tabulate] at here
  split at here
  · obtain rfl : height = 2016 := by omega
    cases here
    cases decoded
    cases storedDecoded
    have sameHeight : below = 2016 := sameHash
    rw [sameHeight]
  · cases here

/-- The period is taken on top of whatever difficulty the floor claims. -/
theorem testnet_seam_unjudged :
    RangeOf Bitcoin.sample hastyStore.network
        (RowValid Bitcoin.sample hastyStore.network) hastyStore.chain 2016
        2016 ∧
      hastyStore.inner.store.Coherent ∧
      DistinctHashes Bitcoin.sample hastyStore.chain hastyPeriod ∧
      ¬ AllOrNothing Bitcoin.sample True hastyStore 2016 2016 0 hastyPeriod
          (hastyStore.prepend Bitcoin.sample 1300000 0 0 hastyPeriod) := by
  refine ⟨stored_hastyStore, RamStore.coherent_open _, distinct_hastyPeriod,
    ?_⟩
  have serves :
      Serves .testnet none 0 (BTreeMap.tabulate hastyHeader 2016 1)
        hastyStore :=
    ⟨rfl, rfl, rfl, rfl, ⟨⟨RamStore.coherent_open _, rfl⟩, rfl⟩⟩
  have period : hastyPeriod.length = 2016 := by simp [hastyPeriod]
  have accepted :=
    @prependLocked_accepts _ Bitcoin.sample .testnet none
      (fun nowSecs => 1300000 ≤ nowSecs) hastyHeader hastyHeader 0 1300000
      2016 0 (Nat.le_refl 1300000)
      (fun height _ below => rowPasses_hastyHeader (by omega))
  obtain ⟨inner, returned, extended, -⟩ :=
    withWriter_returns serves accepted
  have outcome :
      hastyStore.prepend Bitcoin.sample 1300000 0 0 hastyPeriod =
        (.ok (), hastyStore.release inner) := by
    rw [HeaderStore.prepend, if_neg (by rw [period]; decide), period]
    exact returned
  rw [outcome]
  rintro ⟨-, -, judged⟩
  have memory :
      (hastyStore.release inner).chain =
        BTreeMap.tabulate hastyHeader 0 2017 := extended.stores
  rw [memory] at judged
  have present :
      ∀ height : Nat, height < 2017 →
        headerAt Bitcoin.sample
            (fun below => (BTreeMap.tabulate hastyHeader 0 2017)[below]?)
            height =
          some (hastyHeader height) := by
    intro height below
    rw [headerAt, BTreeMap.getElem?_tabulate, if_pos (by omega)]
    rfl
  have seam :=
    judged trivial 2015 (hastyHeader 2015) (hastyHeader 2016) rfl
      (present 2015 (by decide)) (present 2016 (by decide))
  rw [decodeAncestors_tabulate Bitcoin.sample hastyHeader hastyHeader
    (retargetInterval_pos _ _) (Nat.zero_le _) (by decide)
    (fun _ _ _ => rfl)] at seam
  have length :
      (window hastyHeader 0 2016
        (retargetInterval Bitcoin.sample .testnet)).length = 2016 := by
    simp [window, retargetInterval]
  have periodStart :
      (window hastyHeader 0 2016
        (retargetInterval Bitcoin.sample .testnet))[0]? =
          some (hastyHeader 0) := by
    simp [window, retargetInterval]
  -- The period took 600 seconds less than two weeks.
  have tightened :
      (hastyHeader 2016).bits ≠
        Bitcoin.sample.fromNextWorkRequired (hastyHeader 2015).bits
          ((hastyHeader 2015).time - (hastyHeader 0).time)
          (Params.new Bitcoin.sample .testnet) := by
    decide
  simp only [checkRetarget, retargetInterval_new] at seam
  simp only [show hastyStore.network = .testnet from rfl, length,
    periodStart, Nat.sub_self, Nat.lt_irrefl, ↓reduceIte,
    tightened, ne_eq, not_false_eq_true] at seam
  simp [Params.new] at seam

/-- The same store takes the period or keeps what it has. -/
theorem prepend_all_or_nothing_testnet :
    (hastyStore.writerToken ≠ 0 ∧
      (hastyStore.prepend Bitcoin.sample 1300000 0 0 hastyPeriod).2 =
        hastyStore) ∨
    ((nextWrite hastyStore.inner.store.backend.faults).1 = true ∧
      ∃ reason,
        (hastyStore.prepend Bitcoin.sample 1300000 0 0 hastyPeriod).1 =
          .error reason) ∨
    AllOrNothing Bitcoin.sample
      (hastyStore.network.relaxesDifficulty = false) hastyStore 2016 2016 0
      hastyPeriod
      (hastyStore.prepend Bitcoin.sample 1300000 0 0 hastyPeriod) :=
  prepend_all_or_nothing stored_hastyStore (RamStore.coherent_open _)
    1300000 0 0 hastyPeriod distinct_hastyPeriod

end Bwk
