import Bwk.SpReceive
import Bwk.Transitions

namespace Bwk

/-!
# How far a silent-payment scan got

The rest of `sp/src/scan/state.rs`: a scan state under any sequence of its
calls.  Beside the state stands what it was told: the hash last recorded at
each height, and the height the kept hashes lead up to.
-/

namespace ScanState

/-- Forget how far the wallet has scanned. -/
def clearProgress (state : ScanState) : ScanState :=
  { dropBlockHashes
      { state with lastScannedHeight := none } (fun _ => true) with
    lastSpendHeight := none }

/-- Move the receive frontier forward without a hash. -/
def setLastScannedHeight (state : ScanState) (height : Nat) : ScanState :=
  match state.lastScannedHeight with
  | some last =>
      if height > last then
        { state with lastScannedHeight := some height }
      else
        state
  | none => { state with lastScannedHeight := some height }

/-- Write the state back, and tell how that went. -/
def tryPersist (state : ScanState) : Except PersistError Unit × ScanState :=
  match state.flushHashes with
  | (.ok (), flushed) =>
      (if (nextWrite flushed.backend.faults).1 then .error .io else .ok (),
        flushed.flushScalars)
  | (.error reason, flushed) => (.error reason, flushed)

theorem tryPersist_snd (state : ScanState) :
    state.tryPersist.2 = state.persist := by
  unfold tryPersist persist
  rcases state.flushHashes with ⟨_ | _, flushed⟩ <;> rfl

theorem loadFromBackend_flushScalars
    {state : ScanState}
    (hashes : RamStore.open_ state.blockHashes.backend = state.blockHashes)
    (written : (nextWrite state.backend.faults).1 = false)
    (birthday : Nat) :
    loadFromBackend birthday state.flushScalars.blockHashes.backend
        state.flushScalars.backend =
      state.flushScalars := by
  have shape :
      state.flushScalars =
        { state with
          backend :=
            { lastScannedHeight := some state.lastScannedHeight
              birthdayHeight := some state.birthdayHeight
              lastSpendHeight := some state.lastSpendHeight
              faults := (nextWrite state.backend.faults).2 } } := by
    unfold flushScalars
    dsimp only
    rw [written]
    rfl
  rw [shape]
  unfold loadFromBackend
  dsimp only
  rw [hashes]
  rfl

end ScanState

theorem RamStore.Coherent.open_of_flush
    {Backend Key Value : Type}
    [Ord Key] [Std.TransOrd Key] [Std.LawfulEqOrd Key] [DecidableEq Key]
    [PersistenceBackend Backend Key Value]
    [LawfulBackend Backend]
    {store after : RamStore Backend Key Value}
    (coherent : store.Coherent)
    (flushed : store.flush = (.ok (), after)) :
    RamStore.open_ after.backend = after := by
  have rows := coherent.rows_of_flush flushed
  have cached : after.cache = store.cache := by
    rw [← RamStore.cache_flush store, flushed]
  have unmarked : after.dirty = ∅ ∧ after.removed = ∅ := by
    unfold RamStore.flush at flushed
    split at flushed
    · next clean =>
        cases flushed
        exact ⟨Std.ExtTreeSet.isEmpty_iff.mp clean.1,
          Std.ExtTreeSet.isEmpty_iff.mp clean.2⟩
    · split at flushed
      · cases flushed
        exact ⟨rfl, rfl⟩
      · cases flushed
  unfold RamStore.open_
  rw [rows, ← cached, ← unmarked.1]
  cases after
  simp_all

namespace ScanState

theorem loadFromBackend_tryPersist
    {state after : ScanState}
    (coherent : state.blockHashes.Coherent)
    (written : state.tryPersist = (.ok (), after))
    (birthday : Nat) :
    loadFromBackend birthday after.blockHashes.backend after.backend =
      after := by
  unfold tryPersist at written
  rcases outcome : state.flushHashes with ⟨_ | _, flushed⟩
  · rw [outcome] at written
    cases written
  · rw [outcome] at written
    dsimp only at written
    obtain ⟨succeeded, shape⟩ := Prod.mk.inj written
    have stored : (nextWrite flushed.backend.faults).1 = false := by
      by_contra failed
      rw [if_pos (by simpa using failed)] at succeeded
      cases succeeded
    have hashes :
        state.blockHashes.flush = (.ok (), flushed.blockHashes) := by
      unfold flushHashes at outcome
      obtain ⟨went, same⟩ := Prod.mk.inj outcome
      rw [← same, ← went]
    rw [← shape]
    exact loadFromBackend_flushScalars (coherent.open_of_flush hashes) stored
      birthday

end ScanState

inductive ScanCall where
  | advanceFrontier (height : Nat) (blockHash : BlockHash)
  | advanceSpendFrontier (height : Nat)
  | rollBack (forkHeight : Nat)
  | clearProgress
  | setLastScannedHeight (height : Nat)
  | persist
  /-- Write the state back and, if that goes well, go on with what is read. -/
  | reopen (birthdayHeight : Nat)
  deriving Repr, DecidableEq

def ScanCall.apply (state : ScanState) : ScanCall → ScanState
  | advanceFrontier height blockHash =>
      state.advanceFrontier height blockHash
  | advanceSpendFrontier height => state.advanceSpendFrontier height
  | rollBack forkHeight => state.rollBack forkHeight
  | clearProgress => state.clearProgress
  | setLastScannedHeight height => state.setLastScannedHeight height
  | persist => state.persist
  | reopen birthdayHeight =>
      match state.tryPersist with
      | (.ok (), after) =>
          ScanState.loadFromBackend birthdayHeight after.blockHashes.backend
            after.backend
      | (.error _, after) => after

/-- A scan state, and what it was told. -/
structure ObservedScan where
  state : ScanState
  /-- The height the kept hashes lead up to. -/
  top : Option Nat
  /-- The hash last recorded at a height. -/
  recorded : Nat → Option BlockHash

namespace ObservedScan

/-- A state as its rows make it. -/
def opened
    (birthdayHeight : Nat)
    (hashes : RowBackend Nat BlockHash)
    (backend : AccountRows) : ObservedScan where
  state := ScanState.loadFromBackend birthdayHeight hashes backend
  top := backend.lastScannedHeight.join
  recorded := fun height => hashes.rows[height]?

/-- A call, and what is told by it: a hash that is not above the frontier is
not recorded. -/
def call (observed : ObservedScan) (made : ScanCall) : ObservedScan :=
  let after := made.apply observed.state
  match made with
  | .advanceFrontier height blockHash =>
      if observed.state.unscanned ≤ height then
        { state := after
          top := some height
          recorded := Function.update observed.recorded height blockHash }
      else
        { observed with state := after }
  | .rollBack forkHeight =>
      { observed with
        state := after
        top := observed.top.map (fun top => min top forkHeight) }
  | .clearProgress => { observed with state := after, top := none }
  | .advanceSpendFrontier _ | .setLastScannedHeight _ | .persist
  | .reopen _ => { observed with state := after }

/-- A call is always taken. -/
def step (observed : ObservedScan) (made : ScanCall) : Option ObservedScan :=
  some (observed.call made)

/-- The height a hash is recorded at is one above can be computed of. -/
def Fits (_ : ObservedScan) : ScanCall → Prop
  | .advanceFrontier height _ => height + 1 < 2 ^ 32
  | _ => True

/-- A call the scanner makes: it rolls back below the frontier, and always
has the hash. -/
def ByScanner (observed : ObservedScan) : ScanCall → Prop
  | .advanceFrontier height _ => height + 1 < 2 ^ 32
  | .rollBack forkHeight =>
      ∃ last, observed.state.lastScannedHeight = some last ∧
        forkHeight ≤ last
  | .setLastScannedHeight _ => False
  | _ => True

theorem apply_reopen
    {state : ScanState}
    (coherent : state.blockHashes.Coherent)
    (birthdayHeight : Nat) :
    ScanCall.apply state (.reopen birthdayHeight) = state.persist := by
  rw [← state.tryPersist_snd]
  unfold ScanCall.apply
  dsimp only
  rcases written : state.tryPersist with ⟨_ | _, after⟩
  · rfl
  · exact ScanState.loadFromBackend_tryPersist coherent written birthdayHeight

theorem coherent_apply
    {state : ScanState}
    (coherent : state.blockHashes.Coherent)
    (made : ScanCall) :
    (ScanCall.apply state made).blockHashes.Coherent := by
  have written : state.persist.blockHashes.Coherent := by
    obtain ⟨backend, shape⟩ := state.persist_eq
    rw [shape]
    exact coherent.flush
  cases made with
  | advanceFrontier height blockHash =>
      rw [ScanCall.apply, ScanState.advanceFrontier]
      split
      · exact (coherent.insert height blockHash).removeAll _
      · exact coherent
  | advanceSpendFrontier height =>
      rw [ScanCall.apply, ScanState.advanceSpendFrontier]
      split
      · exact coherent
      · exact coherent
  | rollBack forkHeight | clearProgress =>
      exact coherent.removeAll _
  | setLastScannedHeight height =>
      rw [ScanCall.apply, ScanState.setLastScannedHeight]
      split
      · split
        · exact coherent
        · exact coherent
      · exact coherent
  | persist =>
      exact written
  | reopen birthdayHeight =>
      rw [apply_reopen coherent]
      exact written

theorem state_call (observed : ObservedScan) (made : ScanCall) :
    (observed.call made).state = ScanCall.apply observed.state made := by
  cases made with
  | advanceFrontier height blockHash =>
      unfold call
      dsimp only
      split
      · rfl
      · rfl
  | advanceSpendFrontier height =>
      rfl
  | rollBack forkHeight =>
      rfl
  | clearProgress =>
      rfl
  | setLastScannedHeight height =>
      rfl
  | persist =>
      rfl
  | reopen birthdayHeight =>
      rfl

/-- A call that moves the spend frontier no further than a fork. -/
def BelowFork
    (forkHeight : Nat)
    (observed : ObservedScan)
    (made : ScanCall) : Prop :=
  Fits observed made ∧
    ∀ height, made = .advanceSpendFrontier height → height ≤ forkHeight

/-- The kept hashes are the recorded ones of the heights below the top. -/
structure Windowed (observed : ObservedScan) : Prop where
  window :
    ∀ height hash, observed.state.scanned[height]? = some hash →
      ∃ top, observed.top = some top ∧ height ≤ top ∧
        top < height + reorgDepth
  reached :
    ∀ top, observed.top = some top →
      ∃ last, observed.state.lastScannedHeight = some last ∧ top ≤ last
  vouched :
    ∀ height hash, observed.state.scanned[height]? = some hash →
      observed.recorded height = some hash

def SavedWindow
    (hashes : RowBackend Nat BlockHash)
    (backend : AccountRows) : Prop :=
  ∀ height hash, hashes.rows[height]? = some hash →
    ∃ last, backend.lastScannedHeight.join = some last ∧ height ≤ last ∧
      last < height + reorgDepth

theorem Windowed.opened
    {hashes : RowBackend Nat BlockHash}
    {backend : AccountRows}
    (saved : SavedWindow hashes backend)
    (birthdayHeight : Nat) :
    (opened birthdayHeight hashes backend).Windowed where
  window := saved
  reached := fun top reached => ⟨top, reached, Nat.le_refl top⟩
  vouched := fun _ _ stored => stored

section Steps

variable {observed : ObservedScan}

/-- What is told of a call that leaves the hashes and moves the frontier
forward, if at all. -/
theorem Windowed.of_scanned
    (windowed : observed.Windowed)
    {after : ScanState}
    (scanned : after.scanned = observed.state.scanned)
    (forward :
      ∀ last, observed.state.lastScannedHeight = some last →
        ∃ next, after.lastScannedHeight = some next ∧ last ≤ next) :
    ({ observed with state := after } : ObservedScan).Windowed where
  window := by
    intro height hash stored
    rw [scanned] at stored
    exact windowed.window height hash stored
  reached := by
    intro top reached
    obtain ⟨last, here, below⟩ := windowed.reached top reached
    obtain ⟨next, there, moved⟩ := forward last here
    exact ⟨next, there, below.trans moved⟩
  vouched := by
    intro height hash stored
    rw [scanned] at stored
    exact windowed.vouched height hash stored

theorem Windowed.advanceFrontier
    (windowed : observed.Windowed)
    (height : Nat)
    (blockHash : BlockHash) :
    (observed.call (.advanceFrontier height blockHash)).Windowed := by
  unfold call
  dsimp only
  by_cases above : observed.state.unscanned ≤ height
  · rw [if_pos above]
    have moves := (ScanState.above_iff observed.state height).mpr above
    have kept := observed.state.getElem?_scanned_advanceFrontier blockHash above
    refine ⟨?_, ?_, ?_⟩
    · intro query hash stored
      refine ⟨height, rfl, ?_⟩
      rw [ScanCall.apply, kept] at stored
      split at stored
      · next same =>
          subst same
          exact ⟨Nat.le_refl _, by unfold reorgDepth; omega⟩
      · split at stored
        · cases stored
        · next recent =>
            obtain ⟨top, led, below, _⟩ := windowed.window query hash stored
            obtain ⟨last, reached, within⟩ := windowed.reached top led
            rw [ScanState.unscanned_some reached] at above
            exact ⟨by omega, by omega⟩
    · intro top reached
      cases reached
      refine ⟨height, ?_, Nat.le_refl _⟩
      rw [ScanCall.apply, ScanState.advanceFrontier, if_pos moves]
      rfl
    · intro query hash stored
      rw [ScanCall.apply, kept] at stored
      dsimp only
      rw [Function.update_apply]
      split at stored
      · next same =>
          rw [if_pos same]
          exact stored
      · next other =>
          rw [if_neg other]
          split at stored
          · cases stored
          · exact windowed.vouched query hash stored
  · rw [if_neg above]
    have stays :
        ScanCall.apply observed.state (.advanceFrontier height blockHash) =
          observed.state := by
      rw [ScanCall.apply, ScanState.advanceFrontier, if_neg]
      rw [ScanState.above_iff]
      exact above
    rw [stays]
    exact windowed

theorem Windowed.rollBack
    (windowed : observed.Windowed)
    (forkHeight : Nat) :
    (observed.call (.rollBack forkHeight)).Windowed := by
  have left_ :
      ∀ query hash,
        (observed.state.rollBack forkHeight).scanned[query]? = some hash →
          query ≤ forkHeight ∧ observed.state.scanned[query]? = some hash := by
    intro query hash stored
    rw [ScanState.rollBack, ScanState.getElem?_scanned_dropBlockHashes]
      at stored
    split at stored
    · cases stored
    · next low =>
        exact ⟨by simpa using low, stored⟩
  refine ⟨?_, ?_, ?_⟩
  · intro query hash stored
    obtain ⟨low, before⟩ := left_ query hash stored
    obtain ⟨top, led, below, recent⟩ := windowed.window query hash before
    refine ⟨min top forkHeight, ?_, by omega, by omega⟩
    change observed.top.map (fun top => min top forkHeight) = _
    rw [led]
    rfl
  · intro top reached
    obtain ⟨before, _, same⟩ := Option.map_eq_some_iff.mp reached
    refine ⟨forkHeight, rfl, ?_⟩
    omega
  · intro query hash stored
    exact windowed.vouched query hash (left_ query hash stored).2

theorem Windowed.clearProgress :
    (observed.call .clearProgress).Windowed := by
  have gone :
      ∀ query : Nat,
        (observed.state.clearProgress).scanned[query]? = none := by
    intro query
    exact (ScanState.getElem?_scanned_dropBlockHashes ..).trans (if_pos rfl)
  refine ⟨?_, ?_, ?_⟩
  · intro query hash stored
    cases (gone query).symm.trans stored
  · intro top reached
    cases reached
  · intro query hash stored
    cases (gone query).symm.trans stored

theorem Windowed.persist
    (windowed : observed.Windowed) :
    ({ observed with state := observed.state.persist } :
      ObservedScan).Windowed := by
  refine windowed.of_scanned observed.state.scanned_persist ?_
  intro last reached
  exact ⟨last, by rw [ScanState.lastScannedHeight_persist, reached],
    Nat.le_refl _⟩

theorem Windowed.call
    (windowed : observed.Windowed)
    (coherent : observed.state.blockHashes.Coherent)
    (made : ScanCall) :
    (observed.call made).Windowed := by
  cases made with
  | advanceFrontier height blockHash =>
      exact windowed.advanceFrontier height blockHash
  | advanceSpendFrontier height =>
      have shape :
          ∃ spend,
            observed.state.advanceSpendFrontier height =
              { observed.state with lastSpendHeight := spend } := by
        unfold ScanState.advanceSpendFrontier
        split
        · exact ⟨_, rfl⟩
        · exact ⟨_, rfl⟩
      obtain ⟨spend, shape⟩ := shape
      refine windowed.of_scanned ?_ ?_
      · rw [ScanCall.apply, shape]
        rfl
      · intro last reached
        exact ⟨last, by rw [ScanCall.apply, shape, reached], Nat.le_refl _⟩
  | rollBack forkHeight =>
      exact windowed.rollBack forkHeight
  | clearProgress =>
      exact Windowed.clearProgress
  | setLastScannedHeight height =>
      refine windowed.of_scanned ?_ ?_
      · rw [ScanCall.apply, ScanState.setLastScannedHeight]
        split
        · split
          · rfl
          · rfl
        · rfl
      · intro last reached
        rw [ScanCall.apply, ScanState.setLastScannedHeight, reached]
        dsimp only
        split
        · next above =>
            exact ⟨height, rfl, Nat.le_of_lt above⟩
        · exact ⟨last, reached, Nat.le_refl _⟩
  | persist =>
      exact windowed.persist
  | reopen birthdayHeight =>
      have same := apply_reopen coherent birthdayHeight
      unfold ObservedScan.call
      dsimp only
      rw [same]
      exact windowed.persist

theorem Windowed.size_le
    (windowed : observed.Windowed) :
    observed.state.scanned.size ≤ reorgDepth := by
  have stored :
      ∀ height ∈ observed.state.scanned.keys,
        ∃ top, observed.top = some top ∧ height ≤ top ∧
          top < height + reorgDepth := by
    intro height member
    obtain ⟨hash, kept⟩ :=
      BTreeMap.mem_iff_getElem?.mp (Std.ExtTreeMap.mem_keys.mp member)
    exact windowed.window height hash kept
  rw [← Std.ExtTreeMap.length_keys]
  have distinct : observed.state.scanned.keys.Nodup :=
    Std.ExtTreeMap.nodup_keys
  cases led : observed.top with
  | none =>
      have empty : observed.state.scanned.keys = [] := by
        rw [List.eq_nil_iff_forall_not_mem]
        intro height member
        obtain ⟨top, reached, _⟩ := stored height member
        cases led.symm.trans reached
      rw [empty]
      exact Nat.zero_le _
  | some top =>
      have within :
          observed.state.scanned.keys ⊆
            List.range' (top + 1 - reorgDepth) reorgDepth := by
        intro height member
        obtain ⟨reached, same, below, recent⟩ := stored height member
        cases led.symm.trans same
        rw [List.mem_range'_1]
        omega
      have short := (distinct.subperm within).length_le
      rwa [List.length_range'] at short

end Steps

section Runs

variable
    {start observed : ObservedScan}
    {events : List ScanCall}

variable {allowed : ObservedScan → ScanCall → Prop}

theorem kept_of_run
    (Inv : ObservedScan → Prop)
    (ran : Run step allowed start events observed)
    (initially : Inv start)
    (kept :
      ∀ {observed made}, Inv observed → allowed observed made →
        Inv (observed.call made)) :
    Inv observed := by
  refine ran.invariant Inv initially ?_
  intro state next made holds may stepped
  cases stepped
  exact kept holds may

theorem coherent_of_run
    (ran : Run step allowed start events observed)
    (initially : start.state.blockHashes.Coherent) :
    observed.state.blockHashes.Coherent := by
  refine kept_of_run (fun observed => observed.state.blockHashes.Coherent) ran
    initially ?_
  intro observed made coherent _
  rw [state_call]
  exact coherent_apply coherent made

theorem windowed_of_run
    (ran : Run step allowed start events observed)
    (initially : start.state.blockHashes.Coherent)
    (windowed : start.Windowed) :
    observed.Windowed := by
  refine (kept_of_run
    (fun observed =>
      observed.state.blockHashes.Coherent ∧ observed.Windowed)
    ran ⟨initially, windowed⟩ ?_).2
  intro observed made kept _
  refine ⟨?_, kept.2.call kept.1 made⟩
  rw [state_call]
  exact coherent_apply kept.1 made

theorem top_of_run
    (ran : Run step ByScanner start events observed)
    (initially : start.state.blockHashes.Coherent)
    (led : start.top = start.state.lastScannedHeight) :
    observed.top = observed.state.lastScannedHeight := by
  refine (kept_of_run
    (fun observed =>
      observed.state.blockHashes.Coherent ∧
        observed.top = observed.state.lastScannedHeight)
    ran ⟨initially, led⟩ ?_).2
  rintro observed made ⟨coherent, led⟩ may
  refine ⟨by rw [state_call]; exact coherent_apply coherent made, ?_⟩
  cases made with
  | advanceFrontier height blockHash =>
      unfold call
      dsimp only
      rw [ScanCall.apply, ScanState.advanceFrontier]
      split
      · next above =>
          rw [if_pos ((ScanState.above_iff observed.state height).mpr above)]
          rfl
      · next below =>
          rw [if_neg (mt (ScanState.above_iff observed.state height).mp below)]
          exact led
  | advanceSpendFrontier height =>
      change observed.top =
        (observed.state.advanceSpendFrontier height).lastScannedHeight
      unfold ScanState.advanceSpendFrontier
      split
      · exact led
      · exact led
  | rollBack forkHeight =>
      obtain ⟨last, reached, low⟩ := may
      change observed.top.map (fun top => min top forkHeight) =
        some forkHeight
      rw [led, reached, Option.map_some, Nat.min_eq_right low]
  | clearProgress =>
      rfl
  | setLastScannedHeight height =>
      exact may.elim
  | persist =>
      exact led.trans observed.state.lastScannedHeight_persist.symm
  | reopen birthdayHeight =>
      change observed.top =
        (ScanCall.apply observed.state
          (.reopen birthdayHeight)).lastScannedHeight
      rw [apply_reopen coherent]
      exact led.trans observed.state.lastScannedHeight_persist.symm

theorem lastSpendHeight_of_run
    {forkHeight : Nat}
    (ran : Run step (BelowFork forkHeight) start events observed)
    (initially : start.state.blockHashes.Coherent)
    (low :
      ∀ frontier ∈ start.state.lastSpendHeight, frontier ≤ forkHeight) :
    ∀ frontier ∈ observed.state.lastSpendHeight, frontier ≤ forkHeight := by
  refine (kept_of_run
    (fun observed =>
      observed.state.blockHashes.Coherent ∧
        ∀ frontier ∈ observed.state.lastSpendHeight, frontier ≤ forkHeight)
    ran ⟨initially, low⟩ ?_).2
  rintro observed made ⟨coherent, low⟩ ⟨_, bounded⟩
  rw [state_call]
  refine ⟨coherent_apply coherent made, ?_⟩
  cases made with
  | advanceFrontier height blockHash =>
      rw [ScanCall.apply, ScanState.lastSpendHeight_advanceFrontier]
      exact low
  | advanceSpendFrontier height =>
      rw [ScanCall.apply, ScanState.advanceSpendFrontier]
      split
      · intro frontier reached
        cases reached
        exact bounded height rfl
      · exact low
  | rollBack fork =>
      intro frontier reached
      obtain ⟨before, there, same⟩ := Option.map_eq_some_iff.mp reached
      have below := low before there
      omega
  | clearProgress =>
      intro frontier reached
      cases reached
  | setLastScannedHeight height =>
      rw [ScanCall.apply, ScanState.setLastScannedHeight]
      split
      · split
        · exact low
        · exact low
      · exact low
  | persist =>
      rw [ScanCall.apply, ScanState.lastSpendHeight_persist]
      exact low
  | reopen birthdayHeight =>
      rw [apply_reopen coherent, ScanState.lastSpendHeight_persist]
      exact low

theorem lastSpendHeight_rollBack
    (state : ScanState)
    (forkHeight : Nat) :
    ∀ frontier ∈ (state.rollBack forkHeight).lastSpendHeight,
      frontier ≤ forkHeight := by
  intro frontier reached
  obtain ⟨before, _, same⟩ := Option.map_eq_some_iff.mp reached
  omega

/-- Rows that hold nothing. -/
def noRows : AccountRows :=
  ⟨none, none, none, []⟩

/-- A reorg of one block, then a restart. -/
def sampleCalls : List ScanCall :=
  [.advanceFrontier 10 1, .advanceFrontier 11 2, .advanceSpendFrontier 11,
    .persist, .rollBack 10, .reopen 7, .advanceFrontier 11 3]

def afterCalls (calls : List ScanCall) : ObservedScan :=
  calls.foldl call (opened 7 ⟨∅, []⟩ noRows)

theorem run_afterCalls
    (calls : List ScanCall)
    (may : ∀ call ∈ calls, ∀ observed, allowed observed call) :
    Run step allowed (opened 7 ⟨∅, []⟩ noRows) calls (afterCalls calls) := by
  induction calls using List.reverseRecOn with
  | nil =>
      exact .here
  | append_singleton calls last inductionHypothesis =>
      unfold afterCalls
      rw [List.foldl_append]
      refine .took
        (inductionHypothesis
          (fun call member => may call (List.mem_append_left _ member)))
        (may last (by simp) _) rfl

/-- Any calls on a state that was opened: a saved window stays one, the
scanner's own lead up to the frontier, a rollback bounds the spend frontier,
and what is written is what is read back. -/
theorem scanState_sound
    {birthdayHeight : Nat}
    {hashes : RowBackend Nat BlockHash}
    {backend : AccountRows}
    (ran :
      Run step Fits (opened birthdayHeight hashes backend) events observed) :
    (SavedWindow hashes backend →
      observed.state.scanned.size ≤ reorgDepth ∧
      (∀ height hash, observed.state.scanned[height]? = some hash →
        ∃ top last, observed.top = some top ∧
          observed.state.lastScannedHeight = some last ∧
          height ≤ top ∧ top < height + reorgDepth ∧ top ≤ last) ∧
      (∀ last hash, observed.state.lastScannedHeight = some last →
        observed.state.scanned[last]? = some hash →
          observed.recorded last = some hash)) ∧
    (Run step ByScanner (opened birthdayHeight hashes backend) events
        observed →
      observed.top = observed.state.lastScannedHeight) ∧
    (∀ forkHeight later after,
      Run step (BelowFork forkHeight) (observed.call (.rollBack forkHeight))
          later after →
        ∀ frontier ∈ after.state.lastSpendHeight, frontier ≤ forkHeight) ∧
    (∀ after, observed.state.tryPersist = (.ok (), after) →
      (∀ fallback,
        ScanState.loadFromBackend fallback after.blockHashes.backend
          after.backend = after) ∧
      after.lastScannedHeight = observed.state.lastScannedHeight ∧
      after.scanned = observed.state.scanned ∧
      after.lastSpendHeight = observed.state.lastSpendHeight ∧
      after.birthdayHeight = observed.state.birthdayHeight) := by
  have opens :
      (opened birthdayHeight hashes backend).state.blockHashes.Coherent :=
    RamStore.coherent_open hashes
  have coherent := coherent_of_run ran opens
  refine ⟨?_, ?_, ?_, ?_⟩
  · intro saved
    have windowed :=
      windowed_of_run ran opens (Windowed.opened saved birthdayHeight)
    refine ⟨windowed.size_le, ?_, ?_⟩
    · intro height hash kept
      obtain ⟨top, led, below, recent⟩ := windowed.window height hash kept
      obtain ⟨last, reached, within⟩ := windowed.reached top led
      exact ⟨top, last, led, reached, below, recent, within⟩
    · intro last hash _ kept
      exact windowed.vouched last hash kept
  · intro scanned
    exact top_of_run scanned opens rfl
  · intro forkHeight later after rolled
    refine lastSpendHeight_of_run rolled ?_
      (lastSpendHeight_rollBack observed.state forkHeight)
    exact coherent_apply coherent (.rollBack forkHeight)
  · intro after written
    have same : after = observed.state.persist := by
      rw [← observed.state.tryPersist_snd, written]
    refine ⟨ScanState.loadFromBackend_tryPersist coherent written, ?_, ?_, ?_,
      ?_⟩
    · rw [same, ScanState.lastScannedHeight_persist]
    · rw [same, ScanState.scanned_persist]
    · rw [same, ScanState.lastSpendHeight_persist]
    · rw [same, ScanState.birthdayHeight_persist]

/-- The reorged block's hash is replaced, and what is kept is read back. -/
theorem scanState_sound_sample :
    (afterCalls sampleCalls).state.scanned.size ≤ reorgDepth ∧
      (afterCalls sampleCalls).recorded 11 = some 3 ∧
      ∀ after, (afterCalls sampleCalls).state.tryPersist = (.ok (), after) →
        after.lastScannedHeight = some 11 := by
  have ran :
      Run step Fits (opened 7 ⟨∅, []⟩ noRows) sampleCalls
        (afterCalls sampleCalls) := by
    refine run_afterCalls sampleCalls ?_
    intro call member observed
    simp only [sampleCalls, List.mem_cons, List.not_mem_nil, or_false]
      at member
    rcases member with rfl | rfl | rfl | rfl | rfl | rfl | rfl <;>
      simp [Fits]
  have sound := scanState_sound ran
  have empty : SavedWindow ⟨∅, []⟩ noRows := by
    intro height hash stored
    simp at stored
  have reached :
      (afterCalls sampleCalls).state.lastScannedHeight = some 11 := by
    decide +kernel
  refine ⟨(sound.1 empty).1, ?_, ?_⟩
  · exact (sound.1 empty).2.2 11 3 reached (by decide +kernel)
  · intro after written
    exact (sound.2.2.2 after written).2.1.trans reached

/-- Moving the frontier without a hash leaves the window behind. -/
theorem scanState_window_left_behind :
    Run step Fits (opened 7 ⟨∅, []⟩ noRows)
        [.advanceFrontier 10 1, .setLastScannedHeight 100]
        (afterCalls [.advanceFrontier 10 1, .setLastScannedHeight 100]) ∧
      (afterCalls
        [.advanceFrontier 10 1,
          .setLastScannedHeight 100]).state.lastScannedHeight = some 100 ∧
      (afterCalls
        [.advanceFrontier 10 1,
          .setLastScannedHeight 100]).state.scanned[10]? = some 1 ∧
      ¬ 100 < 10 + reorgDepth := by
  refine ⟨run_afterCalls _ ?_, by decide +kernel, by decide +kernel,
    by decide⟩
  intro call member observed
  simp only [List.mem_cons, List.not_mem_nil, or_false] at member
  rcases member with rfl | rfl <;> simp [Fits]

end Runs

end ObservedScan

end Bwk
