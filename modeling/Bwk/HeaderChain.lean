import Bwk.HeaderValidator

namespace Bwk

/-!
# Pure operations on stored header ranges

The parts of `electrum/src/header_store.rs` that compute on a map from heights
to raw headers without touching the store: the ancestor window handed to the
validator, the checks a reloaded chain goes through, and the candidate branch
of a reorganisation.

Heights are natural numbers below `2 ^ 32`.  The saturating operations of the
source saturate here too; the plain additions are overflow-checked where the
worker and the mutators make them.
-/

/-- The largest height a `u32` holds. -/
def u32Max : Nat := 2 ^ 32 - 1

/-- `height.saturating_add(1)`. -/
def saturatingSucc (height : Nat) : Nat :=
  min (height + 1) u32Max

abbrev HeaderMap (Raw : Type) := BTreeMap Nat Raw

/--
A block the consumer vouches for.  `Checkpoint::new` admits retarget
boundaries only, but a deserialised value skips it, so no bound is assumed.
-/
structure Checkpoint where
  height : Nat
  hash : BlockHash
  deriving Repr, DecidableEq

/-- Why a stored chain is flagged invalid. -/
inductive InvalidCause where
  | validator (error : ValidatorError)
  | sanity
  | checkpoint
  deriving Repr, DecidableEq

/-- Blocks between difficulty retargets on `network`. -/
def retargetInterval (btc : Bitcoin Raw) (network : Network) : Nat :=
  (Params.new btc network).retargetInterval

/-- Height step of the initial-sync batches: one retarget period. -/
def backfillChunk (btc : Bitcoin Raw) (network : Network) : Nat :=
  retargetInterval btc network

/-- `height` snapped down to the nearest retarget boundary. -/
def snap (btc : Bitcoin Raw) (height : Nat) (network : Network) : Nat :=
  height - height % backfillChunk btc network

/-- Where a chain without a checkpoint starts. -/
def backfillFloor
    (btc : Bitcoin Raw)
    (tipHeight : Nat)
    (network : Network) : Nat :=
  snap btc tipHeight network - backfillChunk btc network

/-- The header stored at a height, when it is there and decodes. -/
def headerAt
    (btc : Bitcoin Raw)
    (get : Nat → Option Raw)
    (height : Nat) : Option Header :=
  (get height).bind btc.deserialize

/-- Read downward from `height`, stopping at a gap or once `lo` is taken. -/
def scanDown
    (btc : Bitcoin Raw)
    (get : Nat → Option Raw)
    (lo : Nat) :
    Nat → List Header
  | 0 =>
      match headerAt btc get 0 with
      | none => []
      | some header => [header]
  | height + 1 =>
      match headerAt btc get (height + 1) with
      | none => []
      | some header =>
          if height + 1 = lo then
            [header]
          else
            header :: scanDown btc get lo height

/--
The contiguous run of headers ending right below `height`, at most `max` of
them, oldest first.
-/
def collectAncestors
    (btc : Bitcoin Raw)
    (height max : Nat)
    (get : Nat → Option Raw) :
    List Header :=
  if height = 0 then
    []
  else
    (scanDown btc get (height - max) (height - 1)).reverse

/-- `collectAncestors` over a map. -/
def decodeAncestors
    (btc : Bitcoin Raw)
    (headers : HeaderMap Raw)
    (incomingHeight max : Nat) :
    List Header :=
  collectAncestors btc incomingHeight max (fun height => headers[height]?)

/-- Push onto the sliding ancestor window, dropping the oldest past `max`. -/
def slideWindow (max : Nat) (window : List Header) (header : Header) :
    List Header :=
  if (window ++ [header]).length > max then
    (window ++ [header]).tail
  else
    window ++ [header]

/-- False when `raw` at `height` is another block than `checkpoint`. -/
def holdsCheckpoint
    (btc : Bitcoin Raw)
    (checkpoint : Option Checkpoint)
    (height : Nat)
    (raw : Raw) : Bool :=
  match checkpoint with
  | none => true
  | some pinned =>
      height ≠ pinned.height ∨
        (btc.deserialize raw).any
          (fun header => btc.blockHash header = pinned.hash)

/-- The stored genesis row, when present on a pinned network, is the genesis. -/
def holdsGenesis
    (btc : Bitcoin Raw)
    (network : Network)
    (headers : HeaderMap Raw) : Bool :=
  match expectedGenesis btc network, headers[0]? with
  | some genesis, some raw =>
      (btc.deserialize raw).any
        (fun header => btc.blockHash header = genesis)
  | _, _ => true

/-- Shape checks of a reloaded chain. -/
def sanityCheck
    (btc : Bitcoin Raw)
    (network : Network)
    (checkpoint : Option Checkpoint)
    (headers : HeaderMap Raw) :
    Except InvalidCause Unit :=
  match headers.firstKey?, headers.lastKey? with
  | some min, some max =>
      if max - min + 1 ≠ headers.size then
        .error .sanity
      else if min ≠ 0 ∧ min % backfillChunk btc network ≠ 0 then
        .error .sanity
      else if !holdsGenesis btc network headers then
        .error .sanity
      else if
          checkpoint.any (fun pinned =>
            (headers[pinned.height]?).any (fun raw =>
              !holdsCheckpoint btc checkpoint pinned.height raw)) then
        .error .checkpoint
      else
        .ok ()
  | _, _ => .ok ()

/-- One header of a replay: the lowest of a sparse chain is judged on work. -/
def replayRow
    (btc : Bitcoin Raw)
    (network : Network)
    (nowSecs min : Nat)
    (ancestors : List Header)
    (height : Nat)
    (header : Header) :
    Except ValidatorError Unit :=
  if height = 0 then
    validateAppend btc network [] height header nowSecs
  else if height > min then
    validateAppend btc network ancestors height header nowSecs
  else
    checkPow btc (Params.new btc network) header

/-- The loop of `replayValidate`, carrying the sliding window. -/
def replayRows
    (btc : Bitcoin Raw)
    (network : Network)
    (nowSecs min : Nat) :
    List Header → List (Nat × Raw) → Except ValidatorError Unit
  | _, [] => .ok ()
  | ancestors, (height, raw) :: rest =>
      match btc.deserialize raw with
      | none => .error .malformedHeader
      | some header => do
          replayRow btc network nowSecs min ancestors height header
          replayRows btc network nowSecs min
            (slideWindow (retargetInterval btc network) ancestors header)
            rest

def replayValidate
    (btc : Bitcoin Raw)
    (network : Network)
    (headers : HeaderMap Raw)
    (nowSecs : Nat) :
    Except ValidatorError Unit :=
  match headers.firstKey? with
  | none => .ok ()
  | some min => replayRows btc network nowSecs min [] headers.toList

/-- A validated candidate branch. -/
structure HeaderBranch (Raw : Type) where
  headers : HeaderMap Raw
  chainwork : Work

/-- `Header::work`. -/
def Bitcoin.work (btc : Bitcoin Raw) (header : Header) : Work :=
  btc.toWork (btc.target header.bits)

namespace HeaderBranch

/-- The loop of `validate` over the heights of the branch. -/
def validateRows
    (btc : Bitcoin Raw)
    (network : Network)
    (nowSecs : Nat)
    (buffer : HeaderMap Raw) :
    List Nat → HeaderMap Raw → HeaderBranch Raw →
      Except ValidatorError (HeaderBranch Raw)
  | [], _, branch => .ok branch
  | height :: rest, combined, branch =>
      match buffer[height]? with
      | none => .error .missingAncestor
      | some raw =>
          match btc.deserialize raw with
          | none => .error .malformedHeader
          | some header => do
              validateAppend btc network
                (decodeAncestors btc combined height
                  (retargetInterval btc network))
                height header nowSecs
              validateRows btc network nowSecs buffer rest
                (combined.insert height raw)
                { headers := branch.headers.insert height raw
                  chainwork := branch.chainwork + btc.work header }

/-- Judge the buffered headers above the fork on top of the active prefix. -/
def validate
    (btc : Bitcoin Raw)
    (network : Network)
    (active : HeaderMap Raw)
    (forkHeight incomingHeight : Nat)
    (buffer : HeaderMap Raw)
    (nowSecs : Nat) :
    Except ValidatorError (HeaderBranch Raw) :=
  let first := saturatingSucc forkHeight
  validateRows btc network nowSecs buffer
    (List.range' first (incomingHeight + 1 - first))
    (active.retain (fun height _ => height ≤ forkHeight))
    { headers := ∅, chainwork := 0 }

/-- Work of a list of raw headers; an undecodable one fails loud. -/
def sumWork (btc : Bitcoin Raw) : List Raw → Except ValidatorError Work
  | [] => .ok 0
  | raw :: rest =>
      match btc.deserialize raw with
      | none => .error .malformedHeader
      | some header => do
          let later ← sumWork btc rest
          .ok (btc.work header + later)

/-- The rows of `active` from the height above the fork on, in order. -/
def activeSuffix (active : HeaderMap Raw) (forkHeight : Nat) : List Raw :=
  (active.toList.filter
    (fun row => saturatingSucc forkHeight ≤ row.1)).map Prod.snd

/-- A switch needs strictly more work than the suffix it replaces. -/
def hasMoreWorkThanActive
    (btc : Bitcoin Raw)
    (branch : HeaderBranch Raw)
    (active : HeaderMap Raw)
    (forkHeight : Nat) :
    Except ValidatorError Bool := do
  let activeWork ← sumWork btc (activeSuffix active forkHeight)
  .ok (decide (branch.chainwork > activeWork))

end HeaderBranch

/-- The longest decodable run downward from `height`. -/
private def descend
    (btc : Bitcoin Raw)
    (get : Nat → Option Raw) :
    Nat → List Header
  | 0 => (headerAt btc get 0).toList
  | height + 1 =>
      match headerAt btc get (height + 1) with
      | none => []
      | some header => header :: descend btc get height

variable (btc : Bitcoin Raw) (get : Nat → Option Raw) {max : Nat}
variable {header : Header}

private theorem scanDown_eq_take
    {lo height : Nat}
    (bound : lo ≤ height) :
    scanDown btc get lo height =
      (descend btc get height).take (height + 1 - lo) := by
  induction height with
  | zero =>
      have atZero : lo = 0 := by omega
      subst lo
      cases present : headerAt btc get 0 <;>
        simp [scanDown, descend, present]
  | succ height inductionHypothesis =>
      cases present : headerAt btc get (height + 1) with
      | none =>
          simp [scanDown, descend, present]
      | some header =>
          by_cases last : height + 1 = lo
          · subst last
            simp [scanDown, descend, present]
          · have below : lo ≤ height := by omega
            have counted :
                height + 1 + 1 - lo = (height + 1 - lo) + 1 := by
              omega
            simp [scanDown, descend, present, last,
              inductionHypothesis below, counted]

private theorem collectAncestors_succ_eq
    (positive : 0 < max)
    (height : Nat) :
    collectAncestors btc (height + 1) max get =
      ((descend btc get height).take (min (height + 1) max)).reverse := by
  have bound : height + 1 - max ≤ height := by omega
  have counted :
      height + 1 - (height + 1 - max) = min (height + 1) max := by
    omega
  simp only [collectAncestors, Nat.add_eq_zero_iff, one_ne_zero, and_false,
    ↓reduceIte, Nat.add_sub_cancel, scanDown_eq_take btc get bound, counted]

theorem collectAncestors_congr
    (height max : Nat)
    {first second : Nat → Option Raw}
    (same : ∀ below, below < height → first below = second below) :
    collectAncestors btc height max first =
      collectAncestors btc height max second := by
  have scanned :
      ∀ lo top, top < height →
        scanDown btc first lo top = scanDown btc second lo top := by
    intro lo top
    induction top with
    | zero =>
        intro below
        simp [scanDown, headerAt, same 0 below]
    | succ top inductionHypothesis =>
        intro below
        simp [scanDown, headerAt, same (top + 1) below,
          inductionHypothesis (by omega)]
  by_cases atZero : height = 0
  · simp [collectAncestors, atZero]
  · simp [collectAncestors, atZero,
      scanned (height - max) (height - 1) (by omega)]

theorem collectAncestors_getLast?
    (positive : 0 < max)
    (height : Nat) :
    (collectAncestors btc (height + 1) max get).getLast? =
      headerAt btc get height := by
  rw [collectAncestors_succ_eq btc get positive, List.getLast?_reverse]
  have counted : min (height + 1) max ≠ 0 := by omega
  rw [List.head?_take, if_neg counted]
  cases height with
  | zero =>
      cases present : headerAt btc get 0 <;> simp [descend, present]
  | succ height =>
      cases present : headerAt btc get (height + 1) <;>
        simp [descend, present]

theorem collectAncestors_length_le
    (positive : 0 < max)
    (height : Nat) :
    (collectAncestors btc height max get).length ≤ max := by
  cases height with
  | zero =>
      simp [collectAncestors]
  | succ height =>
      rw [collectAncestors_succ_eq btc get positive]
      simp

theorem collectAncestors_succ
    (positive : 0 < max)
    {height : Nat}
    (present : headerAt btc get height = some header) :
    collectAncestors btc (height + 1) max get =
      slideWindow max (collectAncestors btc height max get) header := by
  cases height with
  | zero =>
      have counted : min 1 max = 1 := by omega
      rw [collectAncestors_succ_eq btc get positive]
      simp [descend, present, counted, collectAncestors, slideWindow]
      omega
  | succ height =>
      rw [collectAncestors_succ_eq btc get positive,
        collectAncestors_succ_eq btc get positive]
      have headShape :
          descend btc get (height + 1) =
            header :: descend btc get height := by
        simp [descend, present]
      rw [headShape]
      generalize descend btc get height = older
      by_cases short : height + 1 < max
      · have oldCount : min (height + 1) max = height + 1 := by omega
        have newCount : min (height + 1 + 1) max = height + 1 + 1 := by omega
        have fits :
            ¬ ((older.take (height + 1)).reverse ++ [header]).length >
              max := by
          simp
          omega
        rw [oldCount, newCount, slideWindow, if_neg fits]
        simp
      · obtain ⟨less, maxShape⟩ : ∃ less, max = less + 1 :=
          ⟨max - 1, by omega⟩
        have oldCount : min (height + 1) max = less + 1 := by omega
        have newCount : min (height + 1 + 1) max = less + 1 := by omega
        rw [oldCount, newCount, slideWindow]
        by_cases full : less + 1 ≤ older.length
        · have overflows :
              ((older.take (less + 1)).reverse ++ [header]).length >
                max := by
            simp
            omega
          rw [if_pos overflows]
          have lastSplit :
              older.take (less + 1) =
                older.take less ++ [older[less]] :=
            List.take_succ_eq_append_getElem (by omega)
          rw [lastSplit, List.reverse_append, List.reverse_singleton,
            List.singleton_append, List.cons_append, List.tail_cons,
            List.take_succ_cons, List.reverse_cons]
        · have fits :
              ¬ ((older.take (less + 1)).reverse ++ [header]).length >
                max := by
            simp
            omega
          have allOlder : older.take (less + 1) = older :=
            List.take_of_length_le (by omega)
          have allNewer :
              (header :: older).take (less + 1) = header :: older :=
            List.take_of_length_le (by simp only [List.length_cons]; omega)
          rw [if_neg fits, allOlder, allNewer, List.reverse_cons]

theorem collectAncestors_suffix
    (positive : 0 < max)
    (height : Nat)
    {fewer more : Nat → Option Raw}
    (extends_ :
      ∀ below raw, fewer below = some raw → more below = some raw) :
    collectAncestors btc height max fewer <:+
      collectAncestors btc height max more := by
  have headerKept :
      ∀ below header,
        headerAt btc fewer below = some header →
        headerAt btc more below = some header := by
    intro below header present
    obtain ⟨raw, stored, decoded⟩ := Option.bind_eq_some_iff.mp present
    exact Option.bind_eq_some_iff.mpr
      ⟨raw, extends_ below raw stored, decoded⟩
  have descended :
      ∀ top, descend btc fewer top <+: descend btc more top := by
    intro top
    induction top with
    | zero =>
        cases present : headerAt btc fewer 0 with
        | none =>
            simp [descend, present]
        | some header =>
            simp [descend, present, headerKept 0 header present]
    | succ top inductionHypothesis =>
        cases present : headerAt btc fewer (top + 1) with
        | none =>
            simp [descend, present]
        | some header =>
            simp [descend, present, headerKept (top + 1) header present,
              inductionHypothesis]
  cases height with
  | zero =>
      simp [collectAncestors]
  | succ height =>
      rw [collectAncestors_succ_eq btc fewer positive,
        collectAncestors_succ_eq btc more positive, List.reverse_suffix]
      exact (descended height).take _

theorem decodeAncestors_of_gap
    {chain : HeaderMap Raw}
    (height : Nat)
    (gap : ∀ below, below + 1 = height → chain[below]? = none) :
    decodeAncestors btc chain height max = [] := by
  cases height with
  | zero =>
      rfl
  | succ below =>
      have absent := gap below rfl
      cases below with
      | zero | succ below =>
          simp [decodeAncestors, collectAncestors, scanDown, headerAt,
            absent]

theorem decodeAncestors_insert
    (chain : HeaderMap Raw)
    (positive : 0 < max)
    {height : Nat}
    {raw : Raw}
    (decoded : btc.deserialize raw = some header) :
    decodeAncestors btc (chain.insert height raw) (height + 1) max =
      slideWindow max (decodeAncestors btc chain height max) header := by
  have present :
      headerAt btc (fun below => (chain.insert height raw)[below]?) height =
        some header := by
    simp [headerAt, decoded]
  rw [decodeAncestors, collectAncestors_succ btc _ positive present]
  congr 1
  apply collectAncestors_congr
  intro below lower
  have different : ¬ height = below := by omega
  simp [different]

end Bwk
