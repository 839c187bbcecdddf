import Bwk.HeaderChain

namespace Bwk

/-!
# The spend scanner

`BlindbitSpendScanner` of `sp/src/scan/mod.rs`: a pool of workers fetches one
spent filter per height and sends it over a channel to the one thread that
calls `next` and `jump_to`.  Each worker runs one atomic step at a time, so
that an abort can fall between any two of them.
-/

/-- A block height as a lock time: below the threshold of a timestamp. -/
structure Height where
  toConsensus : Nat
  valid : toConsensus < 500000000

/-- `left.saturating_add(right)`. -/
def saturatingAdd (left right : Nat) : Nat :=
  min (left + right) u32Max

variable {Filter Error : Type}

/-- Where a submitted fetch stands. -/
inductive FetchStage (Filter Error : Type) where
  | queued
  | fetching
  | fetched (answer : Except Error Filter)
  /-- An error past the last look at the abort flag. -/
  | failing (reason : Error)
  /-- The one error whose worker has set the abort flag. -/
  | announcing (reason : Error)
  /-- A filter past the last look at the abort flag. -/
  | sending (filter : Filter)
  deriving Repr, DecidableEq

/-- What the thread that owns the scanner is doing. -/
inductive ScannerCaller where
  | idle
  | receiving
  | failed
  deriving Repr, DecidableEq

/-- The scanner and the fetches it has submitted, by height. -/
structure SpendScanner (Filter Error : Type) where
  jobs : BTreeMap Nat (FetchStage Filter Error)
  abort : Bool
  channel : List (Nat × Except Error Filter)
  cursor : Nat
  nextToFetch : Nat
  endHeight : Height
  window : Nat
  buf : BTreeMap Nat Filter
  caller : ScannerCaller

namespace SpendScanner

/-- One past the last height of the window. -/
def limit (scanner : SpendScanner Filter Error) : Nat :=
  min (saturatingAdd scanner.cursor scanner.window)
    (saturatingAdd scanner.endHeight.toConsensus 1)

/-- Submit fetches up to the limit, unless a fetch has failed. -/
def refill (scanner : SpendScanner Filter Error) :
    SpendScanner Filter Error :=
  if scanner.abort then
    scanner
  else
    { scanner with
      jobs :=
        scanner.jobs.insertAll
          ((List.range' scanner.nextToFetch
              (scanner.limit - scanner.nextToFetch)).map
            (fun height => (height, .queued)))
      nextToFetch := max scanner.nextToFetch scanner.limit }

def new (cursor : Nat) (endHeight : Height) (window : Nat) :
    SpendScanner Filter Error :=
  refill
    { jobs := ∅
      abort := false
      channel := []
      cursor := cursor
      nextToFetch := cursor
      endHeight := endHeight
      window := window
      buf := ∅
      caller := .idle }

/-- A worker that ends without sending anything. -/
def quit (scanner : SpendScanner Filter Error) (height : Nat) :
    SpendScanner Filter Error :=
  { scanner with jobs := scanner.jobs.erase height }

/-- A worker that goes on to another stage. -/
def advance
    (scanner : SpendScanner Filter Error)
    (height : Nat)
    (stage : FetchStage Filter Error) :
    SpendScanner Filter Error :=
  { scanner with jobs := scanner.jobs.insert height stage }

def send
    (scanner : SpendScanner Filter Error)
    (height : Nat)
    (result : Except Error Filter) :
    SpendScanner Filter Error :=
  { scanner.quit height with
    channel := scanner.channel ++ [(height, result)] }

/-- The next atomic step of the worker at `height`; the backend answers. -/
def work
    (scanner : SpendScanner Filter Error)
    (height : Nat)
    (answer : Except Error Filter) :
    Option (SpendScanner Filter Error) :=
  match scanner.jobs[height]? with
  | none => none
  | some .queued =>
      if scanner.abort then
        some (scanner.quit height)
      else
        some (scanner.advance height .fetching)
  | some .fetching => some (scanner.advance height (.fetched answer))
  | some (.fetched (.error reason)) =>
      if scanner.abort then
        some (scanner.quit height)
      else
        some (scanner.advance height (.failing reason))
  | some (.fetched (.ok filter)) =>
      if scanner.abort then
        some (scanner.quit height)
      else
        some (scanner.advance height (.sending filter))
  | some (.failing reason) =>
      -- Only the first error is announced.
      if scanner.abort then
        some (scanner.quit height)
      else
        some { scanner.advance height (.announcing reason) with
          abort := true }
  | some (.announcing reason) => some (scanner.send height (.error reason))
  | some (.sending filter) => some (scanner.send height (.ok filter))

/-- `next` up to its loop. -/
def next (scanner : SpendScanner Filter Error) :
    Option (SpendScanner Filter Error) :=
  if scanner.caller = .idle ∧
      scanner.cursor ≤ scanner.endHeight.toConsensus then
    some { scanner.refill with caller := .receiving }
  else
    none

/-- The end of `next`: the filter is matched and the cursor moves on. -/
def found (scanner : SpendScanner Filter Error) (matched : Bool) :
    SpendScanner Filter Error :=
  if matched then
    refill { scanner with cursor := scanner.cursor + 1, caller := .idle }
  else
    { scanner with caller := .failed }

/--
One round of the loop in `next`: the buffered filter of the cursor, or else
the next item of the channel.  Without either, `next` waits.
-/
def receive (scanner : SpendScanner Filter Error) (matched : Bool) :
    Option (SpendScanner Filter Error) :=
  if scanner.caller = .receiving then
    match scanner.buf[scanner.cursor]? with
    | some _ =>
        some (found
          { scanner with buf := scanner.buf.erase scanner.cursor } matched)
    | none =>
        match scanner.channel with
        | [] => none
        | (height, result) :: rest =>
            let taken := { scanner with channel := rest }
            if height < scanner.cursor then
              some taken
            else
              match result with
              | .error _ => some { taken with caller := .failed }
              | .ok filter =>
                  if height = scanner.cursor then
                    some (taken.found matched)
                  else
                    some { taken with
                      buf := scanner.buf.insert height filter }
  else
    none

/-- Go on at `target`; what lies below is discarded. -/
def jumpTo (scanner : SpendScanner Filter Error) (target : Nat) :
    Option (SpendScanner Filter Error) :=
  if scanner.caller = .idle ∧ scanner.cursor ≤ target ∧
      target ≤ scanner.endHeight.toConsensus then
    some (refill
      { scanner with
        cursor := target
        nextToFetch := max scanner.nextToFetch target
        buf :=
          scanner.buf.retain (fun height _ => decide (target ≤ height)) })
  else
    none

/-- One step of a worker or of the thread that owns the scanner. -/
inductive Event (Filter Error : Type) where
  | work (height : Nat) (answer : Except Error Filter)
  | next
  | receive (matched : Bool)
  | jumpTo (target : Nat)

def step (scanner : SpendScanner Filter Error) :
    Event Filter Error → Option (SpendScanner Filter Error)
  | .work height answer => scanner.work height answer
  | .next => scanner.next
  | .receive matched => scanner.receive matched
  | .jumpTo target => scanner.jumpTo target

/-- The filter of `height` is in the channel or will be. -/
def FilterComing (scanner : SpendScanner Filter Error) (height : Nat) :
    Prop :=
  (∃ filter, (height, .ok filter) ∈ scanner.channel) ∨
    (∃ filter, scanner.jobs[height]? = some (.sending filter)) ∨
    scanner.abort = false ∧
      (scanner.jobs[height]? = some .queued ∨
        scanner.jobs[height]? = some .fetching ∨
        ∃ filter, scanner.jobs[height]? = some (.fetched (.ok filter)))

/-- An error of the fetch at `height` is in the channel or will be. -/
def ErrorComing (scanner : SpendScanner Filter Error) (height : Nat) :
    Prop :=
  (∃ reason, (height, .error reason) ∈ scanner.channel) ∨
    (∃ reason, scanner.jobs[height]? = some (.announcing reason)) ∨
    scanner.abort = false ∧
      ((∃ reason, scanner.jobs[height]? = some (.fetched (.error reason))) ∨
        ∃ reason, scanner.jobs[height]? = some (.failing reason))

/--
What `next` waits for comes: the filter of its cursor, or an error it does not
discard.
-/
def Awaited (scanner : SpendScanner Filter Error) : Prop :=
  scanner.FilterComing scanner.cursor ∨
    ∃ height, scanner.cursor ≤ height ∧ scanner.ErrorComing height

/-- The one announced error is still on its way to `next`. -/
def ErrorAnnounced (scanner : SpendScanner Filter Error) (height : Nat) :
    Prop :=
  (∃ reason, (height, .error reason) ∈ scanner.channel) ∨
    ∃ reason, scanner.jobs[height]? = some (.announcing reason)

/-- The filter of `height` arrives whatever happens to the abort flag. -/
def Secured (scanner : SpendScanner Filter Error) (height : Nat) : Prop :=
  height ∈ scanner.buf ∨
    (∃ filter, (height, .ok filter) ∈ scanner.channel) ∨
    ∃ filter, scanner.jobs[height]? = some (.sending filter)

/--
An announced error is at the cursor or above it, or it no longer matters
because every filter up to the end is secured.
-/
def Heard (scanner : SpendScanner Filter Error) (cursor : Nat) : Prop :=
  (∃ height, cursor ≤ height ∧ scanner.ErrorAnnounced height) ∨
    ∀ height, cursor ≤ height → height ≤ scanner.endHeight.toConsensus →
      scanner.Secured height

/--
An event that leaves no announced error behind the cursor: a fetch that sets
the abort flag is at the cursor or above it, and a jump does not pass the
announced error, unless every filter from there to the end is secured.
-/
def Clean (scanner : SpendScanner Filter Error) :
    Event Filter Error → Prop
  | .work height _ =>
      scanner.abort = false →
        (∃ reason, scanner.jobs[height]? = some (.failing reason)) →
          scanner.cursor ≤ height ∨
            ∀ later, scanner.cursor ≤ later →
              later ≤ scanner.endHeight.toConsensus → scanner.Secured later
  | .jumpTo target => scanner.abort = true → scanner.Heard target
  | _ => True

inductive CleanRun (start : SpendScanner Filter Error) :
    SpendScanner Filter Error → Prop where
  | start : CleanRun start start
  | step
      {scanner after : SpendScanner Filter Error}
      {event : Event Filter Error}
      (run : CleanRun start scanner)
      (clean : scanner.Clean event)
      (happens : scanner.step event = some after) :
      CleanRun start after

/-- How often a height occurs among the jobs, the channel and the buffer. -/
def places (scanner : SpendScanner Filter Error) (height : Nat) : Nat :=
  (if height ∈ scanner.jobs then 1 else 0) +
    scanner.channel.countP (fun item => item.1 = height) +
    if height ∈ scanner.buf then 1 else 0

/-- What holds of a scanner whatever its window. -/
structure Tracked (scanner : SpendScanner Filter Error) : Prop where
  once : ∀ height, scanner.places height ≤ 1
  ahead : ∀ height, scanner.nextToFetch ≤ height → scanner.places height = 0
  covered :
    scanner.abort = false → scanner.caller ≠ .failed →
      ∀ height, scanner.cursor ≤ height → height < scanner.nextToFetch →
        scanner.places height = 1
  quiet :
    scanner.abort = false → ∀ height, ¬scanner.ErrorAnnounced height
  heard :
    scanner.abort = true → scanner.caller ≠ .failed →
      scanner.Heard scanner.cursor
  wide : 0 < scanner.window
  inside :
    scanner.caller = .receiving →
      scanner.cursor ≤ scanner.endHeight.toConsensus

/-- A tracked scanner whose window is submitted. -/
structure Sound (scanner : SpendScanner Filter Error) : Prop where
  tracked : scanner.Tracked
  filled :
    scanner.abort = false → scanner.caller ≠ .failed →
      scanner.limit ≤ scanner.nextToFetch

section Refill

variable {scanner : SpendScanner Filter Error}

theorem jobs_refill (height : Nat) :
    scanner.refill.jobs[height]? =
      if scanner.abort = false ∧ scanner.nextToFetch ≤ height ∧
          height < scanner.limit then
        some .queued
      else
        scanner.jobs[height]? := by
  unfold refill
  cases scanner.abort with
  | true =>
      simp
  | false =>
      let source : Nat → Option (FetchStage Filter Error) :=
        fun _ => some .queued
      have taken :
          ∀ entry ∈ (List.range' scanner.nextToFetch
              (scanner.limit - scanner.nextToFetch)).map
                (fun height => (height, FetchStage.queued)),
            source entry.1 = some entry.2 := by
        intro entry member
        obtain ⟨other, -, shape⟩ := List.mem_map.mp member
        rw [← shape]
      simp only [Bool.false_eq_true, ↓reduceIte, true_and]
      rw [BTreeMap.getElem?_insertAll_of_source _ taken]
      simp only [source, List.map_map, Function.comp_def, List.map_id',
        List.mem_range'_1]
      congr 1
      apply propext
      omega

@[simp] theorem abort_refill : scanner.refill.abort = scanner.abort := by
  unfold refill
  split <;> rfl

@[simp] theorem channel_refill :
    scanner.refill.channel = scanner.channel := by
  unfold refill
  split <;> rfl

@[simp] theorem cursor_refill : scanner.refill.cursor = scanner.cursor := by
  unfold refill
  split <;> rfl

@[simp] theorem endHeight_refill :
    scanner.refill.endHeight = scanner.endHeight := by
  unfold refill
  split <;> rfl

@[simp] theorem window_refill : scanner.refill.window = scanner.window := by
  unfold refill
  split <;> rfl

@[simp] theorem buf_refill : scanner.refill.buf = scanner.buf := by
  unfold refill
  split <;> rfl

@[simp] theorem caller_refill : scanner.refill.caller = scanner.caller := by
  unfold refill
  split <;> rfl

@[simp] theorem limit_refill : scanner.refill.limit = scanner.limit := by
  simp [limit]

theorem nextToFetch_refill :
    scanner.refill.nextToFetch =
      if scanner.abort then
        scanner.nextToFetch
      else
        max scanner.nextToFetch scanner.limit := by
  unfold refill
  split <;> rfl

end Refill

section Preserved

variable {scanner : SpendScanner Filter Error}

theorem places_refill
    (ahead :
      ∀ height, scanner.nextToFetch ≤ height → scanner.places height = 0)
    (height : Nat) :
    scanner.refill.places height =
      if scanner.abort = false ∧ scanner.nextToFetch ≤ height ∧
          height < scanner.limit then
        1
      else
        scanner.places height := by
  have jobs : height ∈ scanner.refill.jobs ↔
      scanner.abort = false ∧ scanner.nextToFetch ≤ height ∧
        height < scanner.limit ∨ height ∈ scanner.jobs := by
    rw [BTreeMap.mem_iff_getElem?, BTreeMap.mem_iff_getElem?, jobs_refill]
    split
    · rename_i submitted
      exact ⟨fun _ => Or.inl submitted, fun _ => ⟨_, rfl⟩⟩
    · rename_i old
      exact ⟨Or.inr, fun here => here.resolve_left old⟩
  unfold places
  rw [channel_refill, buf_refill]
  by_cases submitted :
      scanner.abort = false ∧ scanner.nextToFetch ≤ height ∧
        height < scanner.limit
  · have nowhere := ahead height submitted.2.1
    unfold places at nowhere
    rw [if_pos submitted, if_pos (jobs.mpr (Or.inl submitted))]
    omega
  · rw [if_neg submitted]
    congr 2
    exact if_congr (jobs.trans (or_iff_right submitted)) rfl rfl

theorem heard_refill (cursor : Nat) (heard : scanner.Heard cursor)
    (aborted : scanner.abort = true) :
    scanner.refill.Heard cursor := by
  have same : scanner.refill = scanner := by
    rw [refill, if_pos aborted]
  rw [same]
  exact heard

theorem Tracked.refill (tracked : scanner.Tracked) :
    scanner.refill.Sound where
  tracked :=
    { once := by
        intro height
        rw [places_refill tracked.ahead]
        split
        · exact Nat.le_refl 1
        · exact tracked.once height
      ahead := by
        intro height beyond
        rw [nextToFetch_refill] at beyond
        rw [places_refill tracked.ahead, if_neg]
        · apply tracked.ahead
          split at beyond <;> omega
        · rintro ⟨running, -, below⟩
          rw [running] at beyond
          simp only [Bool.false_eq_true, ↓reduceIte] at beyond
          omega
      covered := by
        intro running active height above below
        rw [abort_refill] at running
        rw [caller_refill] at active
        rw [cursor_refill] at above
        rw [nextToFetch_refill, running] at below
        rw [places_refill tracked.ahead]
        split
        · rfl
        · rename_i old
          apply tracked.covered running active height above
          simp only [Bool.false_eq_true, ↓reduceIte] at below
          by_contra beyond
          exact old ⟨running, by omega, by omega⟩
      quiet := by
        intro running height announced
        rw [abort_refill] at running
        apply tracked.quiet running height
        rcases announced with ⟨reason, sent⟩ | ⟨reason, job⟩
        · exact Or.inl ⟨reason, by rwa [channel_refill] at sent⟩
        · rw [jobs_refill] at job
          split at job
          · cases job
          · exact Or.inr ⟨reason, job⟩
      heard := by
        intro aborted active
        rw [abort_refill] at aborted
        rw [caller_refill] at active
        rw [cursor_refill]
        exact heard_refill _ (tracked.heard aborted active) aborted
      wide := by
        rw [window_refill]
        exact tracked.wide
      inside := by
        rw [caller_refill, cursor_refill, endHeight_refill]
        exact tracked.inside }
  filled := by
    intro running _
    rw [abort_refill] at running
    rw [limit_refill, nextToFetch_refill, running]
    simp only [Bool.false_eq_true, ↓reduceIte]
    exact Nat.le_max_right _ _

/-- Steps a fetch may still take, and one for its item in the channel. -/
def weight : FetchStage Filter Error → Nat
  | .queued => 6
  | .fetching => 5
  | .fetched _ => 4
  | .failing _ => 3
  | .announcing _ => 2
  | .sending _ => 2

/-- A stage that looks at the abort flag once more. -/
def Undecided (stage : FetchStage Filter Error) : Prop :=
  (∀ reason, stage ≠ .announcing reason) ∧
    ∀ filter, stage ≠ .sending filter

inductive WorkStep (scanner : SpendScanner Filter Error) (height : Nat)
    (stage : FetchStage Filter Error) :
    SpendScanner Filter Error → Prop where
  | quits
      (aborted : scanner.abort = true)
      (undecided : Undecided stage) :
      WorkStep scanner height stage (scanner.quit height)
  | advances
      {later : FetchStage Filter Error}
      (undecided : Undecided stage)
      (unannounced : ∀ reason, later ≠ .announcing reason)
      (lighter : weight later < weight stage) :
      WorkStep scanner height stage (scanner.advance height later)
  | raises
      {reason : Error}
      (running : scanner.abort = false)
      (failing : stage = .failing reason) :
      WorkStep scanner height stage
        { scanner.advance height (.announcing reason) with abort := true }
  | announces
      {reason : Error}
      (announcing : stage = .announcing reason) :
      WorkStep scanner height stage (scanner.send height (.error reason))
  | sends
      {filter : Filter}
      (sending : stage = .sending filter) :
      WorkStep scanner height stage (scanner.send height (.ok filter))

variable {height : Nat} {stage final : FetchStage Filter Error}
variable {after : SpendScanner Filter Error} {answer : Except Error Filter}

theorem work_cases
    (worked : scanner.work height answer = some after) :
    ∃ stage, scanner.jobs[height]? = some stage ∧
      WorkStep scanner height stage after := by
  unfold work at worked
  cases job : scanner.jobs[height]? with
  | none =>
      rw [job] at worked
      cases worked
  | some stage =>
      refine ⟨stage, rfl, ?_⟩
      cases stage with
      | queued =>
          simp only [job] at worked
          split at worked
          · rename_i aborted
            cases worked
            exact .quits aborted ⟨nofun, nofun⟩
          · cases worked
            exact .advances ⟨nofun, nofun⟩ nofun (by simp [weight])
      | fetching =>
          simp only [job] at worked
          cases worked
          exact .advances ⟨nofun, nofun⟩ nofun (by simp [weight])
      | fetched result =>
          cases result with
          | error reason | ok filter =>
              simp only [job] at worked
              split at worked
              · rename_i aborted
                cases worked
                exact .quits aborted ⟨nofun, nofun⟩
              · cases worked
                exact .advances ⟨nofun, nofun⟩ nofun (by simp [weight])
      | failing reason =>
          simp only [job] at worked
          split at worked
          · rename_i aborted
            cases worked
            exact .quits aborted ⟨nofun, nofun⟩
          · rename_i running
            cases worked
            exact .raises (Bool.eq_false_iff.mpr running) rfl
      | announcing reason =>
          simp only [job] at worked
          cases worked
          exact .announces rfl
      | sending filter =>
          simp only [job] at worked
          cases worked
          exact .sends rfl

theorem places_quit_le (height query : Nat) :
    (scanner.quit height).places query ≤ scanner.places query := by
  unfold places quit
  have fewer :
      (if query ∈ scanner.jobs.erase height then 1 else 0) ≤
        if query ∈ scanner.jobs then 1 else 0 := by
    split
    · rename_i kept
      rw [if_pos (Std.ExtTreeMap.mem_erase.mp kept).2]
    · exact Nat.zero_le _
  dsimp only
  omega

theorem places_advance
    (present : height ∈ scanner.jobs)
    (stage : FetchStage Filter Error)
    (query : Nat) :
    (scanner.advance height stage).places query = scanner.places query := by
  have same : query ∈ scanner.jobs.insert height stage ↔
      query ∈ scanner.jobs := by
    rw [Std.ExtTreeMap.mem_insert, Nat.compare_eq_eq]
    constructor
    · rintro (here | old)
      · exact here ▸ present
      · exact old
    · exact Or.inr
  unfold places advance
  dsimp only
  congr 2
  exact if_congr same rfl rfl

theorem places_send
    (present : height ∈ scanner.jobs)
    (result : Except Error Filter)
    (query : Nat) :
    (scanner.send height result).places query = scanner.places query := by
  unfold places send quit
  dsimp only
  rw [List.countP_append, List.countP_singleton]
  by_cases here : height = query
  · subst here
    have gone : height ∉ scanner.jobs.erase height := by
      simp
    rw [if_neg gone, if_pos present]
    simp only [decide_true, ↓reduceIte]
    omega
  · have same : query ∈ scanner.jobs.erase height ↔
        query ∈ scanner.jobs := by
      rw [Std.ExtTreeMap.mem_erase, ne_eq, Nat.compare_eq_eq]
      exact and_iff_right here
    rw [if_congr same rfl rfl]
    simp only [here, decide_false, Bool.false_eq_true, ↓reduceIte]
    omega

theorem Heard.mono
    {cursor later : Nat}
    (heard : scanner.Heard cursor)
    (ordered : cursor ≤ later)
    (announced :
      ∀ height, cursor ≤ height → scanner.ErrorAnnounced height →
        later ≤ height ∧ after.ErrorAnnounced height)
    (secured :
      ∀ height, later ≤ height → scanner.Secured height →
        after.Secured height)
    (sameEnd : after.endHeight = scanner.endHeight) :
    after.Heard later := by
  rcases heard with ⟨height, above, error⟩ | all
  · rcases announced height above error with ⟨still, kept⟩
    exact Or.inl ⟨height, still, kept⟩
  · refine Or.inr (fun height above below => ?_)
    rw [sameEnd] at below
    exact secured height above (all height (Nat.le_trans ordered above) below)

theorem jobs_other
    {height other : Nat}
    (job : scanner.jobs[height]? = some stage)
    (present : scanner.jobs[other]? = some final)
    (different : final ≠ stage) :
    ¬height = other := by
  intro same
  rw [← same, job] at present
  injection present with equal
  exact different equal.symm

theorem jobs_quit
    {height other : Nat}
    (job : scanner.jobs[height]? = some stage)
    (present : scanner.jobs[other]? = some final)
    (different : final ≠ stage) :
    (scanner.quit height).jobs[other]? = some final := by
  rw [quit, BTreeMap.getElem?_erase_eq,
    if_neg (jobs_other job present different)]
  exact present

theorem jobs_advance
    {height other : Nat}
    {stage later final : FetchStage Filter Error}
    (job : scanner.jobs[height]? = some stage)
    (present : scanner.jobs[other]? = some final)
    (different : final ≠ stage) :
    (scanner.advance height later).jobs[other]? = some final := by
  rw [advance, BTreeMap.getElem?_insert_eq,
    if_neg (jobs_other job present different)]
  exact present

/-- Moving fetches between their places keeps the invariant, if no announced
error and no secured filter from the cursor on is lost. -/
theorem Sound.moved
    (sound : scanner.Sound)
    (jobs : BTreeMap Nat (FetchStage Filter Error))
    (channel : List (Nat × Except Error Filter))
    (buf : BTreeMap Nat Filter)
    (shape :
      after = { scanner with jobs := jobs, channel := channel, buf := buf })
    (fewer : ∀ query, after.places query ≤ scanner.places query)
    (kept : scanner.abort = false → ∀ query, scanner.cursor ≤ query →
      after.places query = scanner.places query)
    (quiet : scanner.abort = false → ∀ query,
      after.ErrorAnnounced query → scanner.ErrorAnnounced query)
    (announced : scanner.abort = true → ∀ query, scanner.cursor ≤ query →
      scanner.ErrorAnnounced query → after.ErrorAnnounced query)
    (secured : scanner.abort = true → ∀ query, scanner.cursor ≤ query →
      scanner.Secured query → after.Secured query) :
    after.Sound := by
  have tracked := sound.tracked
  subst shape
  exact
    { tracked :=
        { once := fun query => (fewer query).trans (tracked.once query)
          ahead := fun query beyond =>
            Nat.le_zero.mp ((fewer query).trans
              (Nat.le_of_eq (tracked.ahead query beyond)))
          covered := fun running active query above below =>
            (kept running query above).trans
              (tracked.covered running active query above below)
          quiet := fun running query here =>
            tracked.quiet running query (quiet running query here)
          heard := fun aborted active =>
            (tracked.heard aborted active).mono (Nat.le_refl _)
              (fun query above here =>
                ⟨above, announced aborted query above here⟩)
              (secured aborted) rfl
          wide := tracked.wide
          inside := tracked.inside }
      filled := sound.filled }

theorem Sound.work
    (sound : scanner.Sound)
    (clean : scanner.Clean (.work height answer))
    (worked : scanner.work height answer = some after) :
    after.Sound := by
  rcases work_cases worked with ⟨stage, job, cases⟩
  have present : height ∈ scanner.jobs :=
    BTreeMap.mem_iff_getElem?.mpr ⟨stage, job⟩
  have tracked := sound.tracked
  cases cases with
  | quits aborted undecided =>
      have stopped : scanner.abort = false → False := by
        rw [aborted]
        nofun
      refine sound.moved (scanner.jobs.erase height) _ _ rfl
        (places_quit_le height) (fun running => (stopped running).elim)
        (fun running => (stopped running).elim) (fun _ => ?_) (fun _ => ?_)
      · rintro query - (sent | ⟨reason, held⟩)
        · exact Or.inl sent
        · exact Or.inr ⟨reason, jobs_quit job held (undecided.1 reason).symm⟩
      · rintro query - (buffered | sent | ⟨filter, held⟩)
        · exact Or.inl buffered
        · exact Or.inr (Or.inl sent)
        · exact Or.inr (Or.inr
            ⟨filter, jobs_quit job held (undecided.2 filter).symm⟩)
  | advances undecided unannounced lighter =>
      rename_i later
      have same := places_advance present later
      refine sound.moved (scanner.jobs.insert height later) _ _ rfl
        (fun query => (same query).le) (fun _ query _ => same query)
        (fun _ => ?_) (fun _ => ?_) (fun _ => ?_)
      · rintro query (sent | ⟨reason, held⟩)
        · exact Or.inl sent
        · rw [advance, BTreeMap.getElem?_insert_eq] at held
          split at held
          · injection held with same
            exact (unannounced reason same).elim
          · exact Or.inr ⟨reason, held⟩
      · rintro query - (sent | ⟨reason, held⟩)
        · exact Or.inl sent
        · exact Or.inr
            ⟨reason, jobs_advance job held (undecided.1 reason).symm⟩
      · rintro query - (buffered | sent | ⟨filter, held⟩)
        · exact Or.inl buffered
        · exact Or.inr (Or.inl sent)
        · exact Or.inr (Or.inr
            ⟨filter, jobs_advance job held (undecided.2 filter).symm⟩)
  | raises running failing =>
      rename_i reason
      subst failing
      refine
        { tracked :=
            { once := fun query => ?_
              ahead := fun query beyond => ?_
              covered := nofun
              quiet := nofun
              heard := fun _ active => ?_
              wide := tracked.wide
              inside := tracked.inside }
          filled := nofun }
      · exact (Nat.le_of_eq (places_advance present _ query)).trans
          (tracked.once query)
      · exact (places_advance present _ query).trans
          (tracked.ahead query beyond)
      · rcases clean running ⟨reason, job⟩ with above | secured
        · refine Or.inl ⟨height, above, Or.inr ⟨reason, ?_⟩⟩
          rw [advance, BTreeMap.getElem?_insert_eq, if_pos rfl]
        · refine Or.inr (fun query above below => ?_)
          rcases secured query above below with
            buffered | sent | ⟨filter, held⟩
          · exact Or.inl buffered
          · exact Or.inr (Or.inl sent)
          · exact Or.inr (Or.inr ⟨filter, jobs_advance job held nofun⟩)
  | announces announcing =>
      rename_i reason
      subst announcing
      have stopped : scanner.abort = false → False := fun running =>
        tracked.quiet running height (Or.inr ⟨reason, job⟩)
      refine sound.moved (scanner.jobs.erase height) _ _ rfl
        (fun query => (places_send present _ query).le)
        (fun running => (stopped running).elim)
        (fun running => (stopped running).elim) (fun _ => ?_) (fun _ => ?_)
      · rintro query - (⟨other, sent⟩ | ⟨other, held⟩)
        · exact Or.inl ⟨other, List.mem_append_left _ sent⟩
        · by_cases same : height = query
          · subst same
            exact Or.inl ⟨reason,
              List.mem_append_right _ List.mem_cons_self⟩
          · refine Or.inr ⟨other, ?_⟩
            rw [send, quit, BTreeMap.getElem?_erase_eq, if_neg same]
            exact held
      · rintro query - (buffered | ⟨filter, sent⟩ | ⟨filter, held⟩)
        · exact Or.inl buffered
        · exact Or.inr (Or.inl ⟨filter, List.mem_append_left _ sent⟩)
        · exact Or.inr (Or.inr ⟨filter, jobs_quit job held nofun⟩)
  | sends sending =>
      rename_i filter
      subst sending
      have same := places_send present (.ok filter)
      refine sound.moved (scanner.jobs.erase height) _ _ rfl
        (fun query => (same query).le) (fun _ query _ => same query)
        (fun _ => ?_) (fun _ => ?_) (fun _ => ?_)
      · rintro query (⟨reason, sent⟩ | ⟨reason, held⟩)
        · rcases List.mem_append.mp sent with old | new
          · exact Or.inl ⟨reason, old⟩
          · cases List.mem_singleton.mp new
        · rw [send, quit, BTreeMap.getElem?_erase_eq] at held
          split at held
          · cases held
          · exact Or.inr ⟨reason, held⟩
      · rintro query - (⟨reason, sent⟩ | ⟨reason, held⟩)
        · exact Or.inl ⟨reason, List.mem_append_left _ sent⟩
        · exact Or.inr ⟨reason, jobs_quit job held nofun⟩
      · rintro query - (buffered | ⟨other, sent⟩ | ⟨other, held⟩)
        · exact Or.inl buffered
        · exact Or.inr (Or.inl ⟨other, List.mem_append_left _ sent⟩)
        · by_cases same : height = query
          · subst same
            exact Or.inr (Or.inl ⟨filter,
              List.mem_append_right _ List.mem_cons_self⟩)
          · refine Or.inr (Or.inr ⟨other, ?_⟩)
            rw [send, quit, BTreeMap.getElem?_erase_eq, if_neg same]
            exact held

theorem places_of_announced
    (announced : scanner.ErrorAnnounced height) :
    0 < (if height ∈ scanner.jobs then 1 else 0) +
      scanner.channel.countP (fun item => item.1 = height) := by
  rcases announced with ⟨reason, sent⟩ | ⟨reason, held⟩
  · have counted :
        0 < scanner.channel.countP (fun item => item.1 = height) :=
      List.countP_pos_iff.mpr ⟨_, sent, by simp⟩
    omega
  · rw [if_pos (BTreeMap.mem_iff_getElem?.mpr ⟨_, held⟩)]
    omega

theorem Sound.next
    (sound : scanner.Sound)
    (entered : scanner.next = some after) :
    after.Sound := by
  unfold SpendScanner.next at entered
  split at entered
  · rename_i ready
    cases entered
    have refilled := sound.tracked.refill
    have active : scanner.refill.caller ≠ .failed := by
      rw [caller_refill, ready.1]
      nofun
    exact
      { tracked :=
          { once := refilled.tracked.once
            ahead := refilled.tracked.ahead
            covered := fun running _ =>
              refilled.tracked.covered running active
            quiet := refilled.tracked.quiet
            heard := fun aborted _ =>
              refilled.tracked.heard aborted active
            wide := refilled.tracked.wide
            inside := fun _ => by
              rw [cursor_refill, endHeight_refill]
              exact ready.2 }
        filled := fun running _ => refilled.filled running active }
  · cases entered

theorem Sound.jumpTo
    (sound : scanner.Sound)
    {target : Nat}
    (clean : scanner.Clean (.jumpTo target))
    (jumped : scanner.jumpTo target = some after) :
    after.Sound := by
  unfold SpendScanner.jumpTo at jumped
  split at jumped
  · rename_i ready
    cases jumped
    have tracked := sound.tracked
    have active : scanner.caller ≠ .failed := by
      rw [ready.1]
      nofun
    have buffered :
        ∀ query, query ∈ scanner.buf.retain
            (fun height _ => decide (target ≤ height)) ↔
          query ∈ scanner.buf ∧ target ≤ query := by
      intro query
      rw [BTreeMap.mem_iff_getElem?, BTreeMap.mem_iff_getElem?,
        BTreeMap.getElem?_retain]
      simp only [Option.filter_eq_some_iff, decide_eq_true_eq,
        exists_and_right]
    have fewer :
        ∀ query,
          (if query ∈ scanner.buf.retain
            (fun height _ => decide (target ≤ height)) then 1 else 0) ≤
          if query ∈ scanner.buf then 1 else 0 := by
      intro query
      split
      · rename_i kept
        rw [if_pos ((buffered query).mp kept).1]
      · exact Nat.zero_le _
    apply Tracked.refill
    exact
      { once := fun query => by
          have before := tracked.once query
          have here := fewer query
          unfold places at before ⊢
          dsimp only
          omega
        ahead := fun query beyond => by
          have before := tracked.ahead query
            (Nat.le_trans (Nat.le_max_left _ _) beyond)
          have here := fewer query
          unfold places at before ⊢
          dsimp only
          omega
        covered := fun running _ query above below => by
          dsimp only at running above below
          have before := tracked.covered running active query
            (Nat.le_trans ready.2.1 above) (by omega)
          unfold places at before ⊢
          dsimp only
          rw [if_congr ((buffered query).trans (and_iff_left above)) rfl rfl]
          exact before
        quiet := tracked.quiet
        heard := fun aborted _ =>
          (clean aborted).mono (Nat.le_refl _)
            (fun height above announced => ⟨above, announced⟩)
            (fun height above secured =>
              secured.imp_left (fun here =>
                (buffered height).mpr ⟨here, above⟩))
            rfl
        wide := tracked.wide
        inside := fun receiving => by
          rw [ready.1] at receiving
          cases receiving }
  · cases jumped

theorem sound_found
    (taken : SpendScanner Filter Error)
    (tracked :
      Tracked { taken with cursor := taken.cursor + 1, caller := .idle })
    (matched : Bool) :
    (taken.found matched).Sound := by
  cases matched with
  | true =>
      exact tracked.refill
  | false =>
      exact
        { tracked :=
            { once := tracked.once
              ahead := tracked.ahead
              covered := fun _ active => (active rfl).elim
              quiet := tracked.quiet
              heard := fun _ active => (active rfl).elim
              wide := tracked.wide
              inside := nofun }
          filled := fun _ active => (active rfl).elim }

theorem Sound.taken
    (sound : scanner.Sound)
    (receiving : scanner.caller = .receiving)
    (channel : List (Nat × Except Error Filter))
    (buf : BTreeMap Nat Filter)
    (unannounced : ¬scanner.ErrorAnnounced scanner.cursor)
    (errors :
      ∀ height reason, (height, .error reason) ∈ channel ↔
        (height, .error reason) ∈ scanner.channel)
    (secured :
      ∀ height, scanner.cursor < height → scanner.Secured height →
        Secured { scanner with channel := channel, buf := buf } height)
    (places :
      ∀ height,
        SpendScanner.places
            { scanner with channel := channel, buf := buf } height =
          if height = scanner.cursor then 0 else scanner.places height) :
    Tracked
      { scanner with
        channel := channel
        buf := buf
        cursor := scanner.cursor + 1
        caller := .idle } := by
  have tracked := sound.tracked
  have active : scanner.caller ≠ .failed := by
    rw [receiving]
    nofun
  have announced :
      ∀ height,
        ErrorAnnounced
            { scanner with
              channel := channel
              buf := buf
              cursor := scanner.cursor + 1
              caller := .idle } height ↔
          scanner.ErrorAnnounced height :=
    fun height => or_congr (exists_congr (errors height)) Iff.rfl
  have sameplaces :
      ∀ height,
        SpendScanner.places
            { scanner with
              channel := channel
              buf := buf
              cursor := scanner.cursor + 1
              caller := .idle } height =
          if height = scanner.cursor then 0 else scanner.places height :=
    places
  exact
    { once := fun height => by
        rw [sameplaces]
        split
        · exact Nat.zero_le _
        · exact tracked.once height
      ahead := fun height beyond => by
        rw [sameplaces]
        split
        · rfl
        · exact tracked.ahead height beyond
      covered := fun running _ height above below => by
        dsimp only at above below
        rw [sameplaces, if_neg (by omega)]
        exact tracked.covered running active height (by omega) below
      quiet := fun running height here =>
        tracked.quiet running height ((announced height).mp here)
      heard := fun aborted _ =>
        (tracked.heard aborted active).mono (Nat.le_succ _)
          (fun height above here => by
            refine ⟨?_, (announced height).mpr here⟩
            rcases Nat.lt_or_eq_of_le above with below | same
            · exact below
            · exact absurd (same ▸ here) unannounced)
          (fun height above here => secured height above here)
          rfl
      wide := tracked.wide
      inside := nofun }

theorem Sound.receive
    (sound : scanner.Sound)
    {matched : Bool}
    (received : scanner.receive matched = some after) :
    after.Sound := by
  have tracked := sound.tracked
  have once := tracked.once scanner.cursor
  unfold SpendScanner.receive at received
  split at received
  · rename_i receiving
    have active : scanner.caller ≠ .failed := by
      rw [receiving]
      nofun
    split at received
    · rename_i filter buffered
      cases received
      have inBuf : scanner.cursor ∈ scanner.buf :=
        BTreeMap.mem_iff_getElem?.mpr ⟨filter, buffered⟩
      refine sound_found _
        (sound.taken receiving scanner.channel
          (scanner.buf.erase scanner.cursor) ?_ ?_ ?_ ?_) matched
      · intro announced
        have counted := places_of_announced announced
        unfold places at once
        rw [if_pos inBuf] at once
        omega
      · exact fun height reason => Iff.rfl
      · rintro height above (here | sent | held)
        · refine Or.inl (Std.ExtTreeMap.mem_erase.mpr ⟨?_, here⟩)
          rw [ne_eq, Nat.compare_eq_eq]
          omega
        · exact Or.inr (Or.inl sent)
        · exact Or.inr (Or.inr held)
      · intro height
        have before := tracked.once height
        unfold places at before ⊢
        dsimp only
        by_cases same : height = scanner.cursor
        · subst same
          have gone : scanner.cursor ∉ scanner.buf.erase scanner.cursor := by
            simp
          rw [if_pos inBuf] at before
          rw [if_neg gone, if_pos rfl]
          omega
        · have kept : height ∈ scanner.buf.erase scanner.cursor ↔
              height ∈ scanner.buf := by
            rw [Std.ExtTreeMap.mem_erase, ne_eq, Nat.compare_eq_eq]
            exact and_iff_right (fun equal => same equal.symm)
          rw [if_neg same, if_congr kept rfl rfl]
    · rename_i unbuffered
      split at received
      · cases received
      · rename_i height result rest items
        -- What the head of the channel counted for.
        have counts :
            ∀ query,
              scanner.channel.countP (fun item => item.1 = query) =
                rest.countP (fun item => item.1 = query) +
                  if height = query then 1 else 0 := by
          intro query
          rw [items, List.countP_cons]
          simp only [decide_eq_true_eq]
        split at received
        · rename_i stale
          cases received
          have members :
              ∀ {query : Nat} {answer}, scanner.cursor ≤ query →
                (query, answer) ∈ scanner.channel →
                  (query, answer) ∈ rest := by
            intro query answer above member
            rw [items] at member
            rcases List.mem_cons.mp member with same | later
            · cases same
              omega
            · exact later
          refine sound.moved scanner.jobs rest scanner.buf rfl
            (fun query => ?_) (fun _ query above => ?_) (fun _ => ?_)
            (fun _ => ?_) (fun _ => ?_)
          · have here := counts query
            unfold places
            dsimp only
            omega
          · have here := counts query
            rw [if_neg (by omega)] at here
            unfold places
            dsimp only
            omega
          · rintro query (⟨reason, sent⟩ | held)
            · exact Or.inl ⟨reason, items ▸ List.mem_cons_of_mem _ sent⟩
            · exact Or.inr held
          · rintro query above (⟨reason, sent⟩ | held)
            · exact Or.inl ⟨reason, members above sent⟩
            · exact Or.inr held
          · rintro query above (here | ⟨filter, sent⟩ | held)
            · exact Or.inl here
            · exact Or.inr (Or.inl ⟨filter, members above sent⟩)
            · exact Or.inr (Or.inr held)
        · rename_i current
          split at received
          · cases received
            exact
              { tracked :=
                  { once := fun query => by
                      have before := tracked.once query
                      have here := counts query
                      unfold places at before ⊢
                      dsimp only
                      omega
                    ahead := fun query beyond => by
                      have before := tracked.ahead query beyond
                      have here := counts query
                      unfold places at before ⊢
                      dsimp only
                      omega
                    covered := fun _ failed => (failed rfl).elim
                    quiet := fun running query announced =>
                      tracked.quiet running query
                        (announced.imp_left (fun ⟨reason, sent⟩ =>
                          ⟨reason, items ▸ List.mem_cons_of_mem _ sent⟩))
                    heard := fun _ failed => (failed rfl).elim
                    wide := tracked.wide
                    inside := nofun }
                filled := fun _ failed => (failed rfl).elim }
          · rename_i filter
            have errors :
                ∀ query reason,
                  (query, Except.error reason) ∈ rest ↔
                    (query, Except.error reason) ∈ scanner.channel := by
              intro query reason
              rw [items, List.mem_cons]
              constructor
              · exact Or.inr
              · rintro (same | later)
                · cases same
                · exact later
            split at received
            · rename_i atCursor
              subst atCursor
              cases received
              refine sound_found _
                (sound.taken receiving rest scanner.buf ?_ errors ?_ ?_)
                matched
              · intro announced
                have counted := places_of_announced announced
                rcases announced with ⟨reason, sent⟩ | ⟨reason, held⟩
                · have twice := counts scanner.cursor
                  rw [if_pos rfl] at twice
                  have inRest :
                      0 < rest.countP
                        (fun item => item.1 = scanner.cursor) :=
                    List.countP_pos_iff.mpr
                      ⟨_, (errors _ reason).mpr sent, by simp⟩
                  unfold places at once
                  omega
                · have twice := counts scanner.cursor
                  rw [if_pos rfl] at twice
                  have isJob : scanner.cursor ∈ scanner.jobs :=
                    BTreeMap.mem_iff_getElem?.mpr ⟨_, held⟩
                  unfold places at once
                  rw [if_pos isJob] at once
                  omega
              · rintro query above (here | ⟨other, sent⟩ | held)
                · exact Or.inl here
                · rw [items] at sent
                  rcases List.mem_cons.mp sent with same | later
                  · cases same
                    omega
                  · exact Or.inr (Or.inl ⟨other, later⟩)
                · exact Or.inr (Or.inr held)
              · intro query
                have before := tracked.once query
                have here := counts query
                unfold places at before ⊢
                dsimp only
                by_cases same : query = scanner.cursor
                · subst same
                  rw [if_pos rfl] at here
                  rw [if_pos rfl]
                  omega
                · rw [if_neg (fun equal => same equal.symm)] at here
                  rw [if_neg same]
                  omega
            · rename_i aboveCursor
              cases received
              have places :
                  ∀ query,
                    SpendScanner.places
                        { scanner with
                          channel := rest
                          buf := scanner.buf.insert height filter } query =
                      scanner.places query := by
                intro query
                have before := tracked.once query
                have here := counts query
                unfold SpendScanner.places at before ⊢
                dsimp only
                by_cases same : height = query
                · subst same
                  rw [if_pos rfl] at here
                  have inserted :
                      height ∈ scanner.buf.insert height filter := by
                    simp
                  rw [if_pos inserted]
                  omega
                · rw [if_neg same] at here
                  have kept : query ∈ scanner.buf.insert height filter ↔
                      query ∈ scanner.buf := by
                    rw [Std.ExtTreeMap.mem_insert, Nat.compare_eq_eq]
                    exact or_iff_right same
                  rw [if_congr kept rfl rfl]
                  omega
              refine sound.moved scanner.jobs rest
                (scanner.buf.insert height filter) rfl
                (fun query => (places query).le)
                (fun _ query _ => places query) (fun _ => ?_) (fun _ => ?_)
                (fun _ => ?_)
              · rintro query (⟨reason, sent⟩ | held)
                · exact Or.inl ⟨reason, (errors _ reason).mp sent⟩
                · exact Or.inr held
              · rintro query - (⟨reason, sent⟩ | held)
                · exact Or.inl ⟨reason, (errors _ reason).mpr sent⟩
                · exact Or.inr held
              · rintro query - (here | ⟨other, sent⟩ | held)
                · exact Or.inl
                    (Std.ExtTreeMap.mem_insert.mpr (Or.inr here))
                · rw [items] at sent
                  rcases List.mem_cons.mp sent with same | later
                  · cases same
                    exact Or.inl (by simp)
                  · exact Or.inr (Or.inl ⟨other, later⟩)
                · exact Or.inr (Or.inr held)
  · cases received

end Preserved

section Returns

variable {scanner : SpendScanner Filter Error}

theorem sound_new
    {cursor window : Nat}
    {endHeight : Height}
    (wide : 0 < window) :
    (new cursor endHeight window : SpendScanner Filter Error).Sound := by
  apply Tracked.refill
  exact
    { once := by simp [places]
      ahead := by simp [places]
      covered := by
        intro _ _ height above below
        dsimp only at above below
        omega
      quiet := by simp [ErrorAnnounced]
      heard := nofun
      wide := wide
      inside := nofun }

variable {height : Nat} {after : SpendScanner Filter Error}

theorem Sound.step
    (sound : scanner.Sound)
    {event : Event Filter Error}
    (clean : scanner.Clean event)
    (happens : scanner.step event = some after) :
    after.Sound := by
  cases event with
  | work height answer =>
      exact sound.work clean happens
  | next =>
      exact sound.next happens
  | receive matched =>
      exact sound.receive happens
  | jumpTo target =>
      exact sound.jumpTo clean happens

theorem CleanRun.sound
    {start : SpendScanner Filter Error}
    (run : CleanRun start scanner)
    (sound : start.Sound) :
    scanner.Sound := by
  induction run with
  | start =>
      exact sound
  | step _ clean happens inductionHypothesis =>
      exact inductionHypothesis.step clean happens

theorem coming_of_place
    (running : scanner.abort = false)
    (place : scanner.places height = 1)
    (unbuffered : height ∉ scanner.buf) :
    scanner.FilterComing height ∨ scanner.ErrorComing height := by
  unfold places at place
  rw [if_neg unbuffered, Nat.add_zero] at place
  by_cases job : height ∈ scanner.jobs
  · obtain ⟨stage, held⟩ := BTreeMap.mem_iff_getElem?.mp job
    cases stage with
    | queued =>
        exact Or.inl (Or.inr (Or.inr ⟨running, Or.inl held⟩))
    | fetching =>
        exact Or.inl (Or.inr (Or.inr ⟨running, Or.inr (Or.inl held)⟩))
    | fetched answer =>
        cases answer with
        | error reason =>
            exact Or.inr (Or.inr (Or.inr
              ⟨running, Or.inl ⟨reason, held⟩⟩))
        | ok filter =>
            exact Or.inl (Or.inr (Or.inr
              ⟨running, Or.inr (Or.inr ⟨filter, held⟩)⟩))
    | failing reason =>
        exact Or.inr (Or.inr (Or.inr ⟨running, Or.inr ⟨reason, held⟩⟩))
    | announcing reason =>
        exact Or.inr (Or.inr (Or.inl ⟨reason, held⟩))
    | sending filter =>
        exact Or.inl (Or.inr (Or.inl ⟨filter, held⟩))
  · rw [if_neg job, Nat.zero_add] at place
    obtain ⟨⟨other, result⟩, sent, same⟩ :=
      List.countP_pos_iff.mp (Nat.lt_of_lt_of_eq Nat.zero_lt_one place.symm)
    rw [decide_eq_true_eq] at same
    dsimp only at same
    subst same
    cases result with
    | error reason =>
        exact Or.inr (Or.inl ⟨reason, sent⟩)
    | ok filter =>
        exact Or.inl (Or.inl ⟨filter, sent⟩)

theorem Sound.awaited
    (sound : scanner.Sound)
    (receiving : scanner.caller = .receiving)
    (unbuffered : scanner.buf[scanner.cursor]? = none) :
    scanner.Awaited := by
  have tracked := sound.tracked
  have active : scanner.caller ≠ .failed := by
    rw [receiving]
    nofun
  have absent : scanner.cursor ∉ scanner.buf :=
    BTreeMap.not_mem_iff_getElem?.mpr unbuffered
  have inside := tracked.inside receiving
  cases running : scanner.abort with
  | false =>
      have filled := sound.filled running active
      have small := scanner.endHeight.valid
      have wide := tracked.wide
      have ahead : scanner.cursor < scanner.nextToFetch := by
        unfold limit saturatingAdd u32Max at filled
        omega
      have place :=
        tracked.covered running active _ (Nat.le_refl _) ahead
      rcases coming_of_place running place absent with filter | error
      · exact Or.inl filter
      · exact Or.inr ⟨_, Nat.le_refl _, error⟩
  | true =>
      rcases tracked.heard running active with
        ⟨height, above, announced⟩ | secured
      · refine Or.inr ⟨height, above, ?_⟩
        rcases announced with sent | held
        · exact Or.inl sent
        · exact Or.inr (Or.inl held)
      · rcases secured _ (Nat.le_refl _) inside with here | sent | held
        · exact absurd here absent
        · exact Or.inl (Or.inl sent)
        · exact Or.inl (Or.inr (Or.inl held))

theorem work_enabled
    {stage : FetchStage Filter Error}
    (job : scanner.jobs[height]? = some stage)
    (answer : Except Error Filter) :
    ∃ after, scanner.work height answer = some after := by
  unfold work
  rw [job]
  cases stage with
  | queued =>
      dsimp only
      split <;> exact ⟨_, rfl⟩
  | fetching =>
      exact ⟨_, rfl⟩
  | fetched result =>
      cases result <;> (dsimp only; split <;> exact ⟨_, rfl⟩)
  | failing reason =>
      dsimp only
      split <;> exact ⟨_, rfl⟩
  | announcing reason =>
      exact ⟨_, rfl⟩
  | sending filter =>
      exact ⟨_, rfl⟩

theorem receive_enabled
    (receiving : scanner.caller = .receiving)
    (items : scanner.channel ≠ []) :
    ∃ after, scanner.receive true = some after := by
  unfold receive
  rw [if_pos receiving]
  cases scanner.buf[scanner.cursor]? with
  | some filter =>
      exact ⟨_, rfl⟩
  | none =>
      cases sent : scanner.channel with
      | nil =>
          exact absurd sent items
      | cons item rest =>
          rcases item with ⟨height, result⟩
          dsimp only
          split
          · exact ⟨_, rfl⟩
          · cases result with
            | error reason =>
                exact ⟨_, rfl⟩
            | ok filter =>
                dsimp only
                split <;> exact ⟨_, rfl⟩

theorem Awaited.progress
    (awaited : scanner.Awaited)
    (receiving : scanner.caller = .receiving)
    (answer : Except Error Filter) :
    ∃ event after, scanner.step event = some after := by
  have fromChannel :
      ∀ {height result}, (height, result) ∈ scanner.channel →
        ∃ event after, scanner.step event = some after := by
    intro height result sent
    rcases receive_enabled receiving (List.ne_nil_of_mem sent) with
      ⟨after, received⟩
    exact ⟨.receive true, after, received⟩
  have fromJob :
      ∀ {height : Nat} {stage}, scanner.jobs[height]? = some stage →
        ∃ event after, scanner.step event = some after := by
    intro height stage job
    rcases work_enabled job answer with ⟨after, worked⟩
    exact ⟨.work height answer, after, worked⟩
  rcases awaited with
    (⟨filter, sent⟩ | ⟨filter, job⟩ | ⟨-, job | job | ⟨filter, job⟩⟩) |
      ⟨height, -, ⟨reason, sent⟩ | ⟨reason, job⟩ |
        ⟨-, ⟨reason, job⟩ | ⟨reason, job⟩⟩⟩
  · exact fromChannel sent
  · exact fromJob job
  · exact fromJob job
  · exact fromJob job
  · exact fromJob job
  · exact fromChannel sent
  · exact fromJob job
  · exact fromJob job
  · exact fromJob job

def cost (scanner : SpendScanner Filter Error) (height : Nat) : Nat :=
  match scanner.jobs[height]? with
  | none => 0
  | some stage => weight stage

/-- Steps left before everything submitted is received. -/
def remaining (scanner : SpendScanner Filter Error) : Nat :=
  ∑ height ∈ Finset.range scanner.nextToFetch, scanner.cost height +
    scanner.channel.length

theorem remaining_lt
    (inside : height < scanner.nextToFetch)
    (sameBound : after.nextToFetch = scanner.nextToFetch)
    (others :
      ∀ query, query ≠ height → after.cost query = scanner.cost query)
    (cheaper :
      after.cost height + after.channel.length <
        scanner.cost height + scanner.channel.length) :
    after.remaining < scanner.remaining := by
  have member : height ∈ Finset.range scanner.nextToFetch :=
    Finset.mem_range.mpr inside
  have rest :
      ∑ query ∈ (Finset.range scanner.nextToFetch).erase height,
          after.cost query =
        ∑ query ∈ (Finset.range scanner.nextToFetch).erase height,
          scanner.cost query :=
    Finset.sum_congr rfl
      (fun query inRest => others query (Finset.ne_of_mem_erase inRest))
  rw [remaining, remaining, sameBound, ← Finset.add_sum_erase _ _ member,
    ← Finset.add_sum_erase _ scanner.cost member, rest]
  omega

theorem Sound.work_decreases
    (sound : scanner.Sound)
    {answer : Except Error Filter}
    (worked : scanner.work height answer = some after) :
    after.remaining < scanner.remaining := by
  rcases work_cases worked with ⟨stage, job, cases⟩
  have inside : height < scanner.nextToFetch := by
    by_contra beyond
    have nowhere := sound.tracked.ahead height (Nat.le_of_not_lt beyond)
    unfold places at nowhere
    rw [if_pos (BTreeMap.mem_iff_getElem?.mpr ⟨stage, job⟩)] at nowhere
    omega
  have before : scanner.cost height = weight stage := by
    rw [cost, job]
  cases cases with
  | quits aborted undecided =>
      have positive : 0 < weight stage := by
        cases stage <;> simp [weight]
      refine remaining_lt inside ?_ ?_ ?_
      · rfl
      · intro query different
        simp only [cost, quit, BTreeMap.getElem?_erase_eq,
          if_neg different.symm]
      · rw [before]
        simpa [cost, quit] using positive
  | advances undecided unannounced lighter =>
      refine remaining_lt inside ?_ ?_ ?_
      · rfl
      · intro query different
        simp only [cost, advance, BTreeMap.getElem?_insert_eq,
          if_neg different.symm]
      · rw [before]
        simpa [cost, advance] using lighter
  | raises running failing =>
      subst failing
      refine remaining_lt inside ?_ ?_ ?_
      · rfl
      · intro query different
        simp only [cost, advance, BTreeMap.getElem?_insert_eq,
          if_neg different.symm]
      · rw [before]
        simp [cost, advance, weight]
  | announces named | sends named =>
      subst named
      refine remaining_lt inside ?_ ?_ ?_
      · rfl
      · intro query different
        simp only [cost, send, quit, BTreeMap.getElem?_erase_eq,
          if_neg different.symm]
      · rw [before]
        simp only [cost, send, quit, BTreeMap.getElem?_erase_eq, ↓reduceIte,
          weight, List.length_append, List.length_singleton]
        omega

theorem caller_found (taken : SpendScanner Filter Error) (matched : Bool) :
    (taken.found matched).caller ≠ .receiving := by
  cases matched with
  | true =>
      rw [found, if_pos rfl, caller_refill]
      nofun
  | false =>
      nofun

theorem receive_decreases
    {matched : Bool}
    (received : scanner.receive matched = some after)
    (still : after.caller = .receiving) :
    after.remaining < scanner.remaining := by
  unfold receive at received
  split at received
  · split at received
    · cases received
      exact absurd still (caller_found _ _)
    · split at received
      · cases received
      · rename_i height result rest items
        have shorter : rest.length < scanner.channel.length := by
          rw [items, List.length_cons]
          exact Nat.lt_succ_self _
        split at received
        · cases received
          exact Nat.add_lt_add_left shorter _
        · split at received
          · cases received
            cases still
          · split at received
            · cases received
              exact absurd still (caller_found _ _)
            · cases received
              exact Nat.add_lt_add_left shorter _
  · cases received

/--
In every clean run a call of `next` is answered: while it waits, the filter of
its cursor or an error it returns is in flight or in the channel; some step
can always happen, and every step that leaves it waiting brings the answer
nearer.
-/
theorem next_returns
    {cursor window : Nat}
    {endHeight : Height}
    (wide : 0 < window)
    (run : CleanRun (new cursor endHeight window) scanner)
    (receiving : scanner.caller = .receiving)
    (answer : Except Error Filter) :
    (scanner.buf[scanner.cursor]? = none → scanner.Awaited) ∧
      (∃ event after, scanner.step event = some after) ∧
      ∀ event after, scanner.step event = some after →
        after.caller = .receiving → after.remaining < scanner.remaining := by
  have sound := run.sound (sound_new wide)
  refine ⟨sound.awaited receiving, ?_, ?_⟩
  · cases buffered : scanner.buf[scanner.cursor]? with
    | none =>
        exact (sound.awaited receiving buffered).progress receiving answer
    | some filter =>
        have received :
            scanner.receive true =
              some (found
                { scanner with buf := scanner.buf.erase scanner.cursor }
                true) := by
          rw [receive, if_pos receiving, buffered]
        exact ⟨.receive true, _, received⟩
  · intro event after happens still
    have notIdle : scanner.caller ≠ .idle := by
      rw [receiving]
      nofun
    cases event with
    | work height result =>
        exact sound.work_decreases happens
    | receive matched =>
        exact receive_decreases happens still
    | next =>
        rw [SpendScanner.step, next, if_neg (fun ready => notIdle ready.1)]
          at happens
        cases happens
    | jumpTo target =>
        rw [SpendScanner.step, jumpTo, if_neg (fun ready => notIdle ready.1)]
          at happens
        cases happens

end Returns

def runEvents :
    List (Event Filter Error) → SpendScanner Filter Error →
      Option (SpendScanner Filter Error)
  | [], scanner => some scanner
  | event :: rest, scanner =>
      match scanner.step event with
      | none => none
      | some after => runEvents rest after

/-- A sweep of heights 0 to 5 with two fetches in flight. -/
def sampleScanner : SpendScanner Unit Unit :=
  new 0 ⟨5, by decide⟩ 2

/-- The first filter is returned before the second fetch ends. -/
def firstReturned : List (Event Unit Unit) :=
  List.replicate 4 (.work 0 (.ok ())) ++ [.next, .receive true]

/-- The fetch at height 1 fails, and a jump to height 4 passes its error. -/
def passedError : List (Event Unit Unit) :=
  firstReturned ++ List.replicate 5 (.work 1 (.error ())) ++
    [.jumpTo 4, .next, .receive true, .work 2 (.ok ())]

/-- The first call of `next` waits for a filter that comes. -/
theorem next_returns_first :
    ∃ scanner, CleanRun sampleScanner scanner ∧
      scanner.caller = .receiving ∧
      (scanner.buf[scanner.cursor]? = none → scanner.Awaited) := by
  have entered :
      (sampleScanner.step .next).map SpendScanner.caller =
        some .receiving := by
    decide +kernel
  obtain ⟨scanner, happens, receiving⟩ := Option.map_eq_some_iff.mp entered
  have run : CleanRun sampleScanner scanner :=
    .step .start (show sampleScanner.Clean .next from trivial) happens
  exact ⟨scanner, run, receiving,
    (next_returns (by decide) run receiving (.ok ())).1⟩

/--
The stale error is discarded, no worker fetches the cursor's filter, and the
call of `next` waits for ever.
-/
theorem passed_error_strands_next :
    ∃ scanner, runEvents passedError sampleScanner = some scanner ∧
      scanner.caller = .receiving ∧
      scanner.buf[scanner.cursor]? = none ∧
      ¬scanner.Awaited ∧
      ∀ event, scanner.step event = none := by
  have observed :
      (runEvents passedError sampleScanner).map
          (fun scanner =>
            (scanner.caller, scanner.channel.isEmpty,
              scanner.jobs.isEmpty, scanner.buf.isEmpty)) =
        some (.receiving, true, true, true) := by
    decide +kernel
  obtain ⟨scanner, reached, facts⟩ := Option.map_eq_some_iff.mp observed
  simp only [Prod.mk.injEq, List.isEmpty_iff,
    Std.ExtTreeMap.isEmpty_iff] at facts
  rcases facts with ⟨receiving, items, jobs, buf⟩
  have unbuffered : scanner.buf[scanner.cursor]? = none := by
    simp [buf]
  refine ⟨scanner, reached, receiving, unbuffered, ?_, ?_⟩
  · simp [Awaited, FilterComing, ErrorComing, items, jobs]
  · intro event
    cases event with
    | work height answer =>
        simp [SpendScanner.step, work, jobs]
    | next =>
        simp [SpendScanner.step, next, receiving]
    | receive matched =>
        simp [SpendScanner.step, receive, receiving, unbuffered, items]
    | jumpTo target =>
        simp [SpendScanner.step, jumpTo, receiving]

end SpendScanner

end Bwk
