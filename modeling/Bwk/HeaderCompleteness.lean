import Bwk.HeaderAccepts

namespace Bwk

/-!
# Feeding an honest chain above an anchor

A chain that is valid on its full history is fed to a store that starts at an
anchor, through any mixture of single appends and batches.  Above the anchor
the validator sees only the stored ancestors.  For the difficulty rule that
makes no difference at a retarget boundary; for the median of the past times it
does, since a median over fewer times can be larger.
-/

/-- The times the median rule looks at below `height`, not below `low`. -/
def pastTimes (headers : Nat → Header) (low height : Nat) : List Nat :=
  (List.range' (max low (height - mtpWindow))
    (height - max low (height - mtpWindow))).map
      (fun below => (headers below).time)

variable {headers : Nat → Header}

theorem checkMtp_window
    {network : Network}
    {low height interval : Nat}
    {incoming : Header}
    (above : low < height)
    (wide : height - interval ≤ height - mtpWindow) :
    checkMtp network (window headers low height interval) incoming =
        .ok () ↔
      network = .regtest ∨
        medianTime (pastTimes headers low height) < incoming.time := by
  have length :
      (window headers low height interval).length =
        height - max low (height - interval) := by
    simp [window]
  have nonempty : window headers low height interval ≠ [] := by
    rw [← List.length_pos_iff, length]
    have positive : 0 < mtpWindow := by decide
    omega
  have seen :
      ((window headers low height interval).drop
          ((window headers low height interval).length -
            min (window headers low height interval).length
              mtpWindow)).map Header.time =
        pastTimes headers low height := by
    rw [length, window, ← List.map_drop, List.drop_range', List.map_map,
      pastTimes]
    congr 2 <;> omega
  simp only [checkMtp, nonempty, ↓reduceIte, seen]
  by_cases onRegtest : network = .regtest
  · simp [onRegtest]
  · simp [onRegtest]

theorem getLast?_window
    {low height interval : Nat}
    (above : low < height)
    (positive : 0 < interval) :
    (window headers low height interval).getLast? =
      some (headers (height - 1)) := by
  rw [window, List.getLast?_map, List.getLast?_range', if_neg (by omega)]
  simp only [Option.map_some, Option.some.injEq]
  congr 1
  omega

theorem checkRetarget_window
    {btc : Bitcoin Raw}
    {params : Params}
    {low height : Nat}
    {prev incoming : Header}
    (positive : 0 < params.retargetInterval)
    (boundary : low % params.retargetInterval = 0)
    (above : low < height) :
    checkRetarget btc params
        (window headers low height params.retargetInterval) height prev
        incoming =
      checkRetarget btc params (window headers 0 height height) height prev
        incoming := by
  unfold checkRetarget
  by_cases skipped : params.noPowRetargeting = true
  · simp [skipped]
  by_cases atBoundary : height % params.retargetInterval = 0
  · -- Between two boundaries lies at least one whole interval.
    have apart : low + params.retargetInterval ≤ height := by
      have lowShape := Nat.div_add_mod low params.retargetInterval
      have heightShape := Nat.div_add_mod height params.retargetInterval
      rw [boundary, Nat.add_zero] at lowShape
      rw [atBoundary, Nat.add_zero] at heightShape
      have fewer :
          low / params.retargetInterval <
            height / params.retargetInterval := by
        by_contra notFewer
        have ordered :=
          Nat.mul_le_mul_left params.retargetInterval (not_lt.mp notFewer)
        omega
      have stepped :=
        Nat.mul_le_mul_left params.retargetInterval
          (Nat.succ_le_of_lt fewer)
      rw [Nat.mul_succ] at stepped
      omega
    have lengths :
        (window headers low height params.retargetInterval).length =
            params.retargetInterval ∧
          (window headers 0 height height).length = height := by
      constructor
      · simp only [window, List.length_map, List.length_range']
        omega
      · simp [window]
    have periodStart :
        (window headers low height params.retargetInterval)[
            params.retargetInterval - params.retargetInterval]? =
          (window headers 0 height height)[
            height - params.retargetInterval]? := by
      rw [window, window, List.getElem?_map, List.getElem?_map,
        List.getElem?_range' (by omega), List.getElem?_range' (by omega)]
      simp only [Option.map_some, Option.some.injEq]
      congr 1
      omega
    have longEnough : ¬ height < params.retargetInterval := by omega
    simp only [skipped, atBoundary, ↓reduceIte, lengths, periodStart,
      longEnough, Nat.lt_irrefl]
  · simp [skipped, atBoundary]

/--
On a chain that is valid on its full history, the stored ancestors of a header
above an anchor refuse it over the median rule only.
-/
theorem validateAppend_window
    {btc : Bitcoin Raw}
    {network : Network}
    {low height nowSecs : Nat}
    (boundary : low % retargetInterval btc network = 0)
    (above : low < height)
    (onHistory :
      validateAppend btc network (window headers 0 height height) height
        (headers height) nowSecs = .ok ()) :
    validateAppend btc network
        (window headers low height (retargetInterval btc network)) height
        (headers height) nowSecs = .ok () ↔
      network = .regtest ∨
        medianTime (pastTimes headers low height) <
          (headers height).time := by
  have positive : height ≠ 0 := by omega
  have interval := retargetInterval_pos btc network
  have wide :
      height - retargetInterval btc network ≤ height - mtpWindow := by
    have atLeast : mtpWindow ≤ retargetInterval btc network := by
      simp [mtpWindow, retargetInterval]
    omega
  rw [validateAppend_eq_ok_iff positive] at onHistory ⊢
  rw [getLast?_window (by omega) (by omega)] at onHistory
  obtain ⟨cap, prev, parent, work, linked, retargets, -⟩ := onHistory
  rw [getLast?_window above interval, checkMtp_window above wide]
  constructor
  · rintro ⟨-, -, -, -, -, -, late⟩
    exact late
  · intro late
    refine ⟨cap, prev, parent, work, linked, ?_, late⟩
    intro judged
    rw [← retargets judged]
    exact checkRetarget_window interval boundary above

/-- The whole chain passes the validator at `nowSecs`, on its full history. -/
def ConsensusValid
    (btc : Bitcoin Raw)
    (network : Network)
    (headers : Nat → Header)
    (tip nowSecs : Nat) : Prop :=
  ∀ height ≤ tip,
    validateAppend btc network ((List.range height).map headers) height
      (headers height) nowSecs = .ok ()

/--
Every header within the median window of the anchor is later than the median of
the times from the anchor up.
-/
def LateAbove (headers : Nat → Header) (anchor tip : Nat) : Prop :=
  ∀ height, anchor < height → height < anchor + mtpWindow → height ≤ tip →
    medianTime
        ((List.range' anchor (height - anchor)).map
          (fun below => (headers below).time)) <
      (headers height).time

section Chain

variable {btc : Bitcoin Raw} {network : Network}
variable {checkpoint : Option Checkpoint}
variable {served : Nat → Raw} {headers : Nat → Header}
variable {anchor tip earliest : Nat}

theorem ConsensusValid.later
    {nowSecs : Nat}
    (consensus : ConsensusValid btc network headers tip earliest)
    (ordered : earliest ≤ nowSecs) :
    ConsensusValid btc network headers tip nowSecs := by
  intro height below
  exact validateAppend_later (consensus height below) ordered

private theorem history_eq_window (headers : Nat → Header) (height : Nat) :
    (List.range height).map headers = window headers 0 height height := by
  simp [window, List.range_eq_range']

theorem replayRow_window
    {nowSecs height : Nat}
    (consensus : ConsensusValid btc network headers tip nowSecs)
    (boundary : anchor % retargetInterval btc network = 0)
    (above : anchor ≤ height)
    (below : height ≤ tip) :
    replayRow btc network nowSecs anchor
        (window headers anchor height (retargetInterval btc network)) height
        (headers height) = .ok () ↔
      (anchor < height →
        network = .regtest ∨
          medianTime (pastTimes headers anchor height) <
            (headers height).time) := by
  have onHistory := consensus height below
  rw [history_eq_window] at onHistory
  unfold replayRow
  by_cases atZero : height = 0
  · subst atZero
    rw [validateAppend_zero_eq_ok_iff] at onHistory
    rw [if_pos rfl, validateAppend_zero_eq_ok_iff]
    simp [onHistory]
  · rw [if_neg atZero]
    by_cases atFloor : anchor = height
    · subst atFloor
      rw [validateAppend_eq_ok_iff atZero] at onHistory
      obtain ⟨-, -, -, work, -⟩ := onHistory
      simp [work]
    · have higher : anchor < height := by omega
      rw [if_pos higher, validateAppend_window boundary higher onHistory]
      simp [higher]

theorem median_lt_of_consensus
    {nowSecs height : Nat}
    (consensus : ConsensusValid btc network headers tip nowSecs)
    (past : anchor + mtpWindow ≤ height)
    (below : height ≤ tip) :
    network = .regtest ∨
      medianTime (pastTimes headers anchor height) <
        (headers height).time := by
  have positive : 0 < mtpWindow := by decide
  have onHistory := consensus height below
  rw [history_eq_window, validateAppend_eq_ok_iff (by omega)] at onHistory
  obtain ⟨-, -, -, -, -, -, late⟩ := onHistory
  rw [checkMtp_window (by omega) (by omega)] at late
  have same : pastTimes headers 0 height = pastTimes headers anchor height := by
    rw [pastTimes, pastTimes]
    congr 2 <;> omega
  rwa [same] at late

theorem rowPasses_of_late
    (consensus : ConsensusValid btc network headers tip earliest)
    (decodes :
      ∀ height ≤ tip, btc.deserialize (served height) = some (headers height))
    (held :
      ∀ height, anchor ≤ height → height ≤ tip →
        holdsCheckpoint btc checkpoint height (served height) = true)
    (boundary : anchor % retargetInterval btc network = 0)
    (late : network = .regtest ∨ LateAbove headers anchor tip)
    {height : Nat}
    (above : anchor ≤ height)
    (below : height ≤ tip) :
    RowPasses btc network checkpoint (fun nowSecs => earliest ≤ nowSecs)
      served headers anchor height := by
  refine ⟨decodes height below, ?_, held height above below⟩
  intro nowSecs ordered
  rw [replayRow_window (consensus.later ordered) boundary above below]
  intro higher
  by_cases past : anchor + mtpWindow ≤ height
  · exact median_lt_of_consensus consensus past below
  · refine late.imp_right (fun lateAbove => ?_)
    have near := lateAbove height higher (by omega) below
    rwa [pastTimes, show max anchor (height - mtpWindow) = anchor by omega]

end Chain

/-- One call of a feed. -/
inductive Piece where
  | append
  | batch (count : Nat)
  deriving Repr, DecidableEq

/-- How many headers a call takes. -/
def Piece.size : Piece → Nat
  | .append => 1
  | .batch count => count

/-- The call that feeds the next headers of a chain from `start` on. -/
def Piece.call
    (served : Nat → Raw)
    (now : Nat → Nat)
    (start : Nat) : Piece → WriterOp Raw
  | .append => .append (now 0) start (served start)
  | .batch count =>
      .appendBatch now start ((List.range' start count).map served)

/-- Feed a chain call by call, stopping at the first that fails. -/
def feed
    (btc : Bitcoin Raw)
    (token : Nat)
    (served : Nat → Raw)
    (clock : Nat → Nat → Nat) :
    Nat → List Piece → HeaderStore (HeaderBackend Raw) Raw →
      Except Abort Unit × HeaderStore (HeaderBackend Raw) Raw
  | _, [], store => (.ok (), store)
  | start, piece :: rest, store =>
      match
          (piece.call served (clock start) start).apply btc token store with
      | (.ok (), next) =>
          feed btc token served clock (start + piece.size) rest next
      | (.error reason, next) => (.error reason, next)

/-- The headers a feed takes. -/
def feedSize (pieces : List Piece) : Nat :=
  (pieces.map Piece.size).sum

def freshStore
    (btc : Bitcoin Raw)
    (nowSecs : Nat)
    (network : Network)
    (checkpoint : Option Checkpoint) :
    HeaderStore (HeaderBackend Raw) Raw :=
  HeaderStore.withCheckpoint btc nowSecs network checkpoint
    { rows := ∅, faults := [] }

theorem serves_freshStore
    (btc : Bitcoin Raw)
    (nowSecs : Nat)
    (network : Network)
    (checkpoint : Option Checkpoint) :
    Serves network checkpoint 0 ∅
      (freshStore btc nowSecs network checkpoint) := by
  have opened :
      freshStore btc nowSecs network checkpoint =
        { HeaderStore.load network checkpoint
            { rows := ∅, faults := [] : HeaderBackend Raw } with
          inner :=
            { store := RamStore.open_ { rows := ∅, faults := [] }
              validationState := .valid } } := by
    rfl
  rw [opened]
  exact ⟨rfl, rfl, rfl, rfl, ⟨⟨RamStore.coherent_open _, rfl⟩, rfl⟩⟩

section Feeding

variable {btc : Bitcoin Raw} {network : Network}
variable {checkpoint : Option Checkpoint} {clocks : Nat → Prop}
variable {served : Nat → Raw} {headers : Nat → Header}
variable {token low : Nat}

variable {clock : Nat → Nat → Nat}
variable {store : HeaderStore (HeaderBackend Raw) Raw}

theorem Piece.accepted
    {now : Nat → Nat}
    (piece : Piece)
    (count : Nat)
    (readings : ∀ reading, clocks (now reading))
    (bounded : low + (count + 1) + piece.size ≤ u32Max + 1)
    (rows :
      ∀ height, low ≤ height → height < low + (count + 1) + piece.size →
        RowPasses btc network checkpoint clocks served headers low height)
    (serves :
      Serves network checkpoint token
        (BTreeMap.tabulate served low (count + 1)) store) :
    ∃ next,
      (piece.call served now (low + (count + 1))).apply btc token store =
          (.ok (), next) ∧
        Serves network checkpoint token
          (BTreeMap.tabulate served low (count + 1 + piece.size)) next := by
  cases piece with
  | append =>
      have here := rows (low + (count + 1)) (by omega)
        (by simp [Piece.size])
      simp only [Piece.call, WriterOp.apply, HeaderStore.append,
        here.decodes, serves.network, serves.checkpoint]
      exact withWriter_accepts serves
        (appendLocked_tabulate count (readings 0) rows)
  | batch more =>
      simp only [Piece.call, WriterOp.apply, HeaderStore.appendBatch,
        serves.network, serves.checkpoint]
      split
      · rename_i nothing
        have noMore : more = 0 := by simpa using nothing
        subst noMore
        exact ⟨store, rfl, serves⟩
      · exact withWriter_accepts serves
          (appendBatchLocked_accepts count more readings bounded rows)

theorem feed_accepted
    (pieces : List Piece)
    (count : Nat)
    (readings : ∀ start reading, clocks (clock start reading))
    (bounded : low + (count + 1) + feedSize pieces ≤ u32Max + 1)
    (rows :
      ∀ height, low ≤ height →
        height < low + (count + 1) + feedSize pieces →
        RowPasses btc network checkpoint clocks served headers low height)
    (serves :
      Serves network checkpoint token
        (BTreeMap.tabulate served low (count + 1)) store) :
    ∃ next,
      feed btc token served clock (low + (count + 1)) pieces store =
          (.ok (), next) ∧
        Serves network checkpoint token
          (BTreeMap.tabulate served low (count + 1 + feedSize pieces))
          next := by
  induction pieces generalizing count store with
  | nil =>
      exact ⟨store, rfl, serves⟩
  | cons piece rest inductionHypothesis =>
      have total :
          feedSize (piece :: rest) = piece.size + feedSize rest := rfl
      rw [total] at bounded rows ⊢
      obtain ⟨next, called, after⟩ :=
        piece.accepted count (readings (low + (count + 1))) (by omega)
          (fun height above below => rows height above (by omega)) serves
      simp only [feed, called]
      rw [show count + 1 + piece.size = count + piece.size + 1 by omega]
        at after
      obtain ⟨last, fed, ended⟩ :=
        inductionHypothesis (count + piece.size) (by omega)
          (fun height above below => rows height above (by omega)) after
      rw [show low + (count + 1) + piece.size =
          low + (count + piece.size + 1) by omega,
        show count + 1 + (piece.size + feedSize rest) =
          count + piece.size + 1 + feedSize rest by omega]
      exact ⟨last, fed, ended⟩

theorem feed_anchored
    (first : Piece)
    (rest : List Piece)
    (readings : ∀ start reading, clocks (clock start reading))
    (some_ : 0 < first.size)
    (anchors : first = .append → low = 0)
    (boundary : low % retargetInterval btc network = 0)
    (bounded : low + feedSize (first :: rest) ≤ u32Max + 1)
    (rows :
      ∀ height, low ≤ height → height < low + feedSize (first :: rest) →
        RowPasses btc network checkpoint clocks served headers low height)
    (serves : Serves network checkpoint token ∅ store) :
    (feed btc token served clock low (first :: rest) store).1 = .ok () := by
  have total : feedSize (first :: rest) = first.size + feedSize rest := rfl
  rw [total] at bounded rows
  obtain ⟨next, called, after⟩ :
      ∃ next,
        (first.call served (clock low) low).apply btc token store =
            (.ok (), next) ∧
          Serves network checkpoint token
            (BTreeMap.tabulate served low first.size) next := by
    cases first with
    | append =>
        have atZero := anchors rfl
        subst atZero
        have floor := rows 0 (by omega) (by simp [Piece.size])
        have passed := floor.passes (clock 0 0) (readings 0 0)
        rw [replayRow, if_pos rfl] at passed
        simp only [Piece.call, WriterOp.apply, HeaderStore.append,
          floor.decodes, serves.network, serves.checkpoint]
        have single :
            (∅ : HeaderMap Raw).insert 0 (served 0) =
              BTreeMap.tabulate served 0 1 :=
          (BTreeMap.tabulate_succ served 0 0).symm
        have appended :=
          withWriter_accepts serves
            (appendLocked_accepts passed floor.held
              (BTreeMap.covers_singleton 0 (served 0)) (Nat.le_refl 0))
        rw [single] at appended
        exact appended
    | batch count =>
        obtain ⟨more, rfl⟩ : ∃ more, count = 1 + more :=
          ⟨count - 1, by simp only [Piece.size] at some_; omega⟩
        have nonempty :
            (List.range' low (1 + more)).map served ≠ [] := by simp
        simp only [Piece.call, WriterOp.apply, HeaderStore.appendBatch,
          nonempty, ↓reduceIte, serves.network, serves.checkpoint]
        simp only [Piece.size] at bounded rows
        exact withWriter_accepts serves
          (appendBatchLocked_anchors more (readings low) boundary
            (by omega)
            (fun height above below => rows height above (by omega)))
  simp only [feed, called]
  rw [show first.size = first.size - 1 + 1 by omega] at after
  obtain ⟨last, fed, -⟩ :=
    feed_accepted rest (first.size - 1) readings (by omega)
      (fun height above below => rows height above (by omega)) after
  rw [show low + (first.size - 1 + 1) = low + first.size by omega] at fed
  rw [fed]

end Feeding

/--
The store takes the headers of a chain from `anchor` to `tip`, however they are
cut into calls, and a replay takes what it stores.
-/
def AcceptedAbove
    (btc : Bitcoin Raw)
    (network : Network)
    (checkpoint : Option Checkpoint)
    (served : Nat → Raw)
    (anchor tip earliest : Nat) : Prop :=
  (∀ (first : Piece) (rest : List Piece) (clock : Nat → Nat → Nat)
      (opened : Nat),
    0 < first.size → (first = .append → anchor = 0) →
      anchor + feedSize (first :: rest) ≤ tip + 1 →
      (∀ start reading, earliest ≤ clock start reading) →
        (feed btc 0 served clock anchor (first :: rest)
          (freshStore btc opened network checkpoint)).1 = .ok ()) ∧
    ∀ last nowSecs, anchor ≤ last → last ≤ tip → earliest ≤ nowSecs →
      replayValidate btc network
        (BTreeMap.tabulate served anchor (last + 1 - anchor)) nowSecs =
          .ok ()

/--
An honest chain is accepted above an anchor exactly when the median rule is not
checked or no header close to the anchor is dated before the median of the few
times stored below it.
-/
theorem accepted_above_anchor_iff
    (btc : Bitcoin Raw)
    (network : Network)
    (checkpoint : Option Checkpoint)
    (served : Nat → Raw)
    (headers : Nat → Header)
    (anchor tip earliest : Nat)
    (consensus : ConsensusValid btc network headers tip earliest)
    (decodes :
      ∀ height ≤ tip, btc.deserialize (served height) = some (headers height))
    (held :
      ∀ height, anchor ≤ height → height ≤ tip →
        holdsCheckpoint btc checkpoint height (served height) = true)
    (boundary : anchor % retargetInterval btc network = 0)
    (inRange : tip ≤ u32Max) :
    AcceptedAbove btc network checkpoint served anchor tip earliest ↔
      network = .regtest ∨ LateAbove headers anchor tip := by
  constructor
  · rintro ⟨-, replays⟩
    by_contra refused
    rw [not_or] at refused
    have early := refused.2
    simp only [LateAbove, not_forall] at early
    obtain ⟨height, higher, near, below, early⟩ := early
    have replayed := replays height earliest (by omega) below (Nat.le_refl _)
    rw [show height + 1 - anchor = height - anchor + 1 by omega,
      replayValidate_eq_ok_iff (BTreeMap.covers_tabulate _ _ _)
        (by omega)] at replayed
    obtain ⟨header, decoded, passed⟩ :=
      replayed height (served height)
        (by rw [BTreeMap.getElem?_tabulate, if_pos (by omega)])
    cases (decodes height below).symm.trans decoded
    rw [decodeAncestors_tabulate btc served headers
        (retargetInterval_pos btc network) (by omega) (by omega)
        (fun other _ under => decodes other (by omega)),
      replayRow_window consensus boundary (by omega) below] at passed
    rcases passed higher with onRegtest | late
    · exact refused.1 onRegtest
    · rw [pastTimes,
        show max anchor (height - mtpWindow) = anchor by omega] at late
      exact early late
  · intro late
    have rows :
        ∀ height, anchor ≤ height → height ≤ tip →
          RowPasses btc network checkpoint
            (fun nowSecs => earliest ≤ nowSecs) served headers anchor
            height :=
      fun height fromAnchor below =>
        rowPasses_of_late consensus decodes held boundary late fromAnchor
          below
    refine ⟨?_, ?_⟩
    · intro first rest clock opened nonempty anchors fits readings
      exact feed_anchored first rest readings nonempty anchors boundary
        (by omega)
        (fun height fromAnchor under =>
          rows height fromAnchor (by omega))
        (serves_freshStore btc opened network checkpoint)
    · intro last nowSecs fromAnchor below ordered
      rw [show last + 1 - anchor = last - anchor + 1 by omega]
      exact replayValidate_tabulate (last - anchor) ordered
        (fun height above under => rows height above (by omega))

/-- A chain of blocks of equal difficulty, told apart by height and time. -/
def datedHeader (time : Nat → Nat) (height : Nat) : Header where
  version := 1
  prevBlockhash := height - 1
  merkleRoot := 0
  time := time height
  bits := 1000000
  nonce := height

theorem medianTime_lt
    {times : List Nat}
    {bound : Nat}
    (nonempty : times ≠ [])
    (before : ∀ time ∈ times, time < bound) :
    medianTime times < bound := by
  have inside : times.length / 2 < (times.insertionSort (· ≤ ·)).length := by
    have positive := List.length_pos_iff.mpr nonempty
    rw [List.length_insertionSort]
    omega
  rw [medianTime, List.getD_eq_getElem _ _ inside]
  apply before
  exact (List.perm_insertionSort (· ≤ ·) times).mem_iff.mp
    (List.getElem_mem inside)

/--
Such a chain is valid on mainnet wherever the median rule holds, if its first
retarget period takes exactly two weeks.
-/
theorem datedHeader_validates
    {time : Nat → Nat}
    {height nowSecs : Nat}
    (positive : 0 < height)
    (below : height < 4032)
    (twoWeeks : time 2015 - time 0 = 1209600)
    (past : time height ≤ nowSecs)
    (late :
      medianTime (pastTimes (datedHeader time) 0 height) < time height) :
    validateAppend Bitcoin.sample .bitcoin
      (window (datedHeader time) 0 height height) height
      (datedHeader time height) nowSecs = .ok () := by
  have cap : checkFutureCap (datedHeader time height) nowSecs = .ok () := by
    rw [checkFutureCap, if_neg]
    simp only [datedHeader]
    omega
  have work :
      checkPow Bitcoin.sample (Params.new Bitcoin.sample .bitcoin)
        (datedHeader time height) = .ok () := by
    have met : height ≤ 1000000 := by omega
    simp [checkPow, validatePow, Bitcoin.sample, datedHeader, Params.new,
      met]
  rw [validateAppend_eq_ok_iff (by omega),
    getLast?_window (by omega) (by omega)]
  refine ⟨cap, _, rfl, work, ?_, ?_, ?_⟩
  · simp only [checkLinkage_eq_ok_iff, datedHeader, Bitcoin.sample]
  · intro _
    by_cases atBoundary : height = 2016
    · subst atBoundary
      have length :
          (window (datedHeader time) 0 2016 2016).length = 2016 := by
        simp [window]
      have periodStart :
          (window (datedHeader time) 0 2016 2016)[0]? =
            some (datedHeader time 0) := by
        simp [window]
      have span :
          (datedHeader time 2015).time - (datedHeader time 0).time =
            1209600 := twoWeeks
      simp only [checkRetarget, retargetInterval_new, length, periodStart,
        show 2016 - 1 = 2015 from rfl, span]
      simp [Params.new, datedHeader, Bitcoin.sample]
    · have offBoundary : height % 2016 ≠ 0 := by omega
      simp [checkRetarget, offBoundary, datedHeader]
  · rw [checkMtp_window (by omega) (by omega)]
    exact .inr late

theorem median_lt_of_increasing
    {time : Nat → Nat}
    {height : Nat}
    (positive : 0 < height)
    (increasing : ∀ other < height, time other < time height) :
    medianTime (pastTimes (datedHeader time) 0 height) < time height := by
  apply medianTime_lt
  · rw [← List.length_pos_iff, pastTimes, List.length_map,
      List.length_range']
    have window : 0 < mtpWindow := by decide
    omega
  · intro seen member
    obtain ⟨other, inWindow, rfl⟩ := List.mem_map.mp member
    rw [List.mem_range'_1] at inWindow
    exact increasing other (by omega)

/--
Ten-minute blocks, the first period stretched to two weeks, and a block at the
second boundary that is dated a day ahead of the one after it.
-/
def backdatedTime (height : Nat) : Nat :=
  if height = 2015 then 1209600
  else if height = 2016 then 1300000
  else 600 * height

private theorem backdated_consensus :
    ConsensusValid Bitcoin.sample .bitcoin (datedHeader backdatedTime) 2017
      1300000 := by
  intro height below
  by_cases atZero : height = 0
  · subst atZero
    decide
  rw [history_eq_window]
  refine datedHeader_validates (by omega) (by omega) (by decide) ?_ ?_
  · simp only [backdatedTime]
    split_ifs <;> omega
  · by_cases last : height = 2017
    · subst last
      decide +kernel
    · apply median_lt_of_increasing (by omega)
      intro other before
      simp only [backdatedTime]
      split_ifs <;> omega

/--
Anchored at the second boundary, the block after it is refused by an append and
by a replay, although the chain is valid.
-/
theorem backdated_chain_refused :
    ConsensusValid Bitcoin.sample .bitcoin (datedHeader backdatedTime) 2017
        1300000 ∧
      2016 % retargetInterval Bitcoin.sample .bitcoin = 0 ∧
      (feed Bitcoin.sample 0 (datedHeader backdatedTime)
          (fun _ _ => 1300000) 2016 [.batch 1, .append]
          (freshStore Bitcoin.sample 1300000 .bitcoin none)).1 =
        .error (.error (.validate .mtpViolation)) ∧
      replayValidate Bitcoin.sample .bitcoin
          (BTreeMap.tabulate (datedHeader backdatedTime) 2016 2) 1300000 =
        .error .mtpViolation ∧
      ¬ AcceptedAbove Bitcoin.sample .bitcoin none
          (datedHeader backdatedTime) 2016 2017 1300000 := by
  have replayed :
      replayValidate Bitcoin.sample .bitcoin
          (BTreeMap.tabulate (datedHeader backdatedTime) 2016 2) 1300000 =
        .error .mtpViolation := by
    decide +kernel
  refine ⟨backdated_consensus, by decide, by decide +kernel, replayed, ?_⟩
  rintro ⟨-, replays⟩
  have accepted := replays 2017 1300000 (by decide) (by decide)
    (Nat.le_refl _)
  rw [show 2017 + 1 - 2016 = 2 from rfl, replayed] at accepted
  cases accepted

/-- From genesis the first two blocks of that chain are accepted. -/
theorem accepted_above_genesis_backdated :
    AcceptedAbove Bitcoin.sample .bitcoin none (datedHeader backdatedTime) 0 1
      1300000 := by
  have late : LateAbove (datedHeader backdatedTime) 0 1 := by
    intro height above _ below
    obtain rfl : height = 1 := by omega
    decide
  exact (accepted_above_anchor_iff Bitcoin.sample .bitcoin none
    (datedHeader backdatedTime) (datedHeader backdatedTime) 0 1 1300000
    (fun height below => backdated_consensus height (by omega))
    (fun _ _ => rfl) (fun _ _ _ => rfl) (by decide) (by decide)).mpr
      (.inr late)

end Bwk
