import Bwk.SpFrontier
import Bwk.SpWatchable

namespace Bwk

/-!
# The spend frontier over a run of scans

The sweep marks the coins that the chain spends at the heights it visits, and
skips heights at which no watched coin can be spent.  A coin recorded below the
spend frontier is the one it can miss: only the scan that recorded it goes back
to the blocks that may spend it.
-/

/-- The spend of the coin at an outpoint is confirmed. -/
def SpCoinStore.Marked (coins : SpCoinStore) (outpoint : OutPoint) : Prop :=
  ∃ entry, coins.get outpoint = some entry ∧ entry.status.blockHash ≠ none

/-- Every stored coin that the chain spends at or below the spend frontier is
marked spent. -/
def SpendsMarked (spentAt : OutPoint → Option Nat) (stores : ScanStores) :
    Prop :=
  ∀ frontier, stores.state.lastSpendHeight = some frontier →
    ∀ outpoint entry, stores.coins.get outpoint = some entry →
      ∀ height, spentAt outpoint = some height → height ≤ frontier →
        entry.status.blockHash ≠ none

/-- The answers of a scan are the chain's: a block pays outputs that are spent
at its height or above, and the sweep finds exactly the spends of a height. -/
structure ScanInput.Truthful
    (spentAt : OutPoint → Option Nat)
    (input : ScanInput) : Prop where
  outputs :
    ∀ arrival ∈ input.script.arrivals, ∀ block, arrival.outcome = .ok block →
      ∀ (outpoint : OutPoint) (output : OwnedOutput),
        block.outs[outpoint]? = some output →
        output.blockheight = some block.height ∧
          output.spendStatus = .unspent ∧
          ∀ height, spentAt outpoint = some height → block.height ≤ height
  spends :
    ∀ request cursor watch blockHash spent,
      input.script.sweep.next request cursor watch = .ok (blockHash, spent) →
      ∀ outpoint,
        outpoint ∈ spent ↔
          outpoint ∈ watch ∧ spentAt outpoint = some cursor

/-- The sweep is neither stopped nor fails before it is past a height. -/
def SweepScript.RunsPast (script : SweepScript) (height : Nat) : Prop :=
  (∀ request ≤ height, script.stop request = false) ∧
    ∀ cursor ≤ height, ∀ request watch,
      ∃ found, script.next request cursor watch = .ok found

/-- The scan gets every block of its range and sweeps past a height of it. -/
structure ScanInput.Reaches (input : ScanInput) (height : Nat) : Prop where
  range : height ≤ input.stop
  receives : ReceivesAll input.start input.stop input.script.arrivals
  sweeps : input.script.sweep.RunsPast height

/--
The scan misses no spend: it does not start a spend frontier above a spend that
is not marked, and where it records a coin that is spent at or below the spend
frontier it also sweeps past that spend.
-/
structure ScanInput.Prompt
    (spentAt : OutPoint → Option Nat)
    (input : ScanInput)
    (stores : ScanStores) : Prop where
  first :
    stores.state.lastSpendHeight = none →
      ∀ outpoint, stores.coins.Watched outpoint →
        ∀ height, spentAt outpoint = some height → input.start ≤ height
  late :
    ∀ frontier, stores.state.lastSpendHeight = some frontier →
      ∀ block ∈ input.committed stores, ∀ outpoint ∈ block.outs,
        ¬ stores.coins.Marked outpoint →
        ∀ height, spentAt outpoint = some height → height ≤ frontier →
          input.Reaches height

section Sweep

variable
    {spentAt : OutPoint → Option Nat}
    {input : ScanInput}
    {late : Nat}

def SpendsAbove (spentAt : OutPoint → Option Nat) (coins : SpCoinStore) :
    Prop :=
  ∀ outpoint entry, coins.get outpoint = some entry →
    ∃ height, entry.height = some height ∧
      ∀ spent, spentAt outpoint = some spent → height ≤ spent

/--
A sweep at `cursor`: what is spent below it is marked, and what is still open
below `late` is within reach.
-/
structure Sweeping
    (spentAt : OutPoint → Option Nat)
    (input : ScanInput)
    (late cursor : Nat)
    (stores : ScanStores) : Prop where
  placed : SpendsAbove spentAt stores.coins
  swept :
    ∀ outpoint, stores.coins.Watched outpoint →
      ∀ height, spentAt outpoint = some height → cursor ≤ height
  reach :
    ∀ outpoint, stores.coins.Watched outpoint →
      ∀ height, spentAt outpoint = some height → height < late →
        height ≤ input.stop ∧ input.script.sweep.RunsPast height
  frontier :
    ∀ frontier, stores.state.lastSpendHeight = some frontier →
      frontier < late ∨ frontier < cursor

structure Watching
    (spentAt : OutPoint → Option Nat)
    (stores : ScanStores)
    (watch : WatchableSet)
    (coins : List (OutPoint × Nat)) : Prop where
  tallied : watch.Tallied coins
  complete :
    ∀ outpoint, stores.coins.Watched outpoint ↔
      outpoint ∈ coins.map Prod.fst
  above :
    ∀ coin ∈ coins, ∀ height, spentAt coin.1 = some height →
      coin.2 ≤ height

variable {cursor height : Nat} {before : ScanStores} {stores : ScanStores}
variable (times : Nat → Option Nat) (blockHash : BlockHash)
variable {outpoint : OutPoint} {watch : WatchableSet}
variable {coins : List (OutPoint × Nat)}

/-- Stopped where nothing late is left, the frontier covers every spend. -/
theorem Sweeping.marked
    {cursor : Nat}
    (sweeping : Sweeping spentAt input late cursor stores)
    (passed :
      ∀ height, cursor ≤ height → height ≤ input.stop →
        ¬ input.script.sweep.RunsPast height) :
    SpendsMarked spentAt stores := by
  intro frontier reached outpoint entry stored height spent below open_
  have watched : stores.coins.Watched outpoint := ⟨entry, stored, open_⟩
  have low := sweeping.swept outpoint watched height spent
  have bound := sweeping.frontier frontier reached
  have within := sweeping.reach outpoint watched height spent (by omega)
  exact passed height low within.1 within.2

theorem Sweeping.recordSpendFrontier
    (sweeping : Sweeping spentAt input late cursor stores)
    (below : height < cursor) :
    Sweeping spentAt input late cursor
      (stores.recordSpendFrontier height).saveState := by
  have sameCoins :
      ∀ outpoint,
        (stores.recordSpendFrontier height).saveState.coins.get outpoint =
          stores.coins.get outpoint := by
    intro outpoint
    simp [ScanStores.saveState, ScanStores.recordSpendFrontier]
  have sameWatched :
      ∀ outpoint,
        (stores.recordSpendFrontier height).saveState.coins.Watched outpoint ↔
          stores.coins.Watched outpoint := by
    intro outpoint
    unfold SpCoinStore.Watched
    rw [sameCoins]
  constructor
  · intro outpoint entry stored
    rw [sameCoins] at stored
    exact sweeping.placed outpoint entry stored
  · intro outpoint watched
    exact sweeping.swept outpoint ((sameWatched outpoint).mp watched)
  · intro outpoint watched
    exact sweeping.reach outpoint ((sameWatched outpoint).mp watched)
  · intro frontier reached
    have shape :
        (stores.recordSpendFrontier height).saveState.state.lastSpendHeight =
          (stores.state.advanceSpendFrontier height).lastSpendHeight := by
      simp [ScanStores.saveState, ScanStores.recordSpendFrontier]
    rw [shape, ScanState.advanceSpendFrontier] at reached
    split at reached
    · cases reached
      exact Or.inr below
    · exact sweeping.frontier frontier reached

theorem Watching.congr
    {stores other : ScanStores}
    (watching : Watching spentAt stores watch coins)
    (same :
      ∀ outpoint, other.coins.Watched outpoint ↔
        stores.coins.Watched outpoint) :
    Watching spentAt other watch coins where
  tallied := watching.tallied
  complete outpoint := (same outpoint).trans (watching.complete outpoint)
  above := watching.above

theorem watched_recordSpendFrontier
    (stores : ScanStores)
    (height : Nat)
    (outpoint : OutPoint) :
    (stores.recordSpendFrontier height).saveState.coins.Watched outpoint ↔
      stores.coins.Watched outpoint := by
  unfold SpCoinStore.Watched
  simp [ScanStores.saveState, ScanStores.recordSpendFrontier]

def ScanStores.withSpent
    (times : Nat → Option Nat)
    (blockHash : BlockHash)
    (height : Nat)
    (spent : BTreeSet OutPoint)
    (stores : ScanStores) : ScanStores :=
  if spent.isEmpty then
    stores
  else
    stores.recordInputs times blockHash height spent

theorem recordSpent_eq
    (height : Nat)
    (spent : BTreeSet OutPoint)
    (stores : ScanStores) :
    recordSpent times blockHash height spent stores =
      .ok () (stores.withSpent times blockHash height spent) := by
  unfold recordSpent ScanStores.withSpent
  cases spent.isEmpty <;> rfl

theorem get_coins_withSpent
    (height : Nat)
    (spent : BTreeSet OutPoint)
    (stores : ScanStores)
    (query : OutPoint) :
    (stores.withSpent times blockHash height spent).coins.get query =
      if query ∈ spent then
        (stores.coins.get query).map
          (fun entry => entry.withStatus (entry.status.confirmed blockHash))
      else
        stores.coins.get query := by
  unfold ScanStores.withSpent
  split
  · next empty =>
      have absent : query ∉ spent := by
        rw [Std.ExtTreeSet.isEmpty_iff.mp empty]
        simp
      rw [if_neg absent]
  · exact ScanStores.get_coins_recordInputs ..

theorem watched_withSpent
    (height : Nat)
    (spent : BTreeSet OutPoint)
    (stores : ScanStores)
    (outpoint : OutPoint) :
    (stores.withSpent times blockHash height spent).coins.Watched outpoint ↔
      stores.coins.Watched outpoint ∧ outpoint ∉ spent := by
  unfold SpCoinStore.Watched
  simp only [get_coins_withSpent]
  by_cases listed : outpoint ∈ spent
  · rw [if_pos listed]
    constructor
    · rintro ⟨entry, found, open_⟩
      obtain ⟨before, _, rfl⟩ := Option.map_eq_some_iff.mp found
      rw [SpCoinEntry.status_withStatus] at open_
      cases status : before.status with
      | unspent | spent | mined =>
          rw [status] at open_
          cases open_
    · rintro ⟨_, absent⟩
      exact absurd listed absent
  · rw [if_neg listed]
    exact ⟨fun watched => ⟨watched, listed⟩, And.left⟩

theorem Sweeping.withSpent
    (truthful : input.Truthful spentAt)
    {cursor request : Nat}
    (sweeping : Sweeping spentAt input late cursor stores)
    (watching : Watching spentAt stores watch coins)
    {blockHash : BlockHash}
    {spent : BTreeSet OutPoint}
    (answer :
      input.script.sweep.next request cursor watch.outpoints =
        .ok (blockHash, spent)) :
    Sweeping spentAt input late (cursor + 1)
        (stores.withSpent input.script.times blockHash cursor spent) ∧
      ∃ rest,
        Watching spentAt
          (stores.withSpent input.script.times blockHash cursor spent)
          (spent.toList.foldl WatchableSet.remove watch) rest := by
  have found := truthful.spends _ _ _ _ _ answer
  have closed :=
    watched_withSpent input.script.times blockHash cursor spent stores
  constructor
  · constructor
    · intro outpoint entry stored
      rw [get_coins_withSpent] at stored
      split at stored
      · obtain ⟨before, known, rfl⟩ := Option.map_eq_some_iff.mp stored
        exact sweeping.placed outpoint before known
      · exact sweeping.placed outpoint entry stored
    · intro outpoint watched height spends
      obtain ⟨before, unspent⟩ := (closed outpoint).mp watched
      have low := sweeping.swept outpoint before height spends
      have later : height ≠ cursor := by
        rintro rfl
        refine unspent ((found outpoint).mpr ⟨?_, spends⟩)
        rw [watching.tallied.outpoints]
        exact (watching.complete outpoint).mp before
      omega
    · intro outpoint watched
      exact sweeping.reach outpoint ((closed outpoint).mp watched).1
    · intro frontier reached
      have same :
          (stores.withSpent input.script.times blockHash cursor
            spent).state = stores.state := by
        unfold ScanStores.withSpent
        split
        · rfl
        · simp
      rw [same] at reached
      rcases sweeping.frontier frontier reached with low | low
      · exact Or.inl low
      · exact Or.inr (by omega)
  · obtain ⟨rest, tallied, members⟩ :=
      watching.tallied.removeAll spent.toList
    refine ⟨rest, tallied, ?_, ?_⟩
    · intro outpoint
      rw [closed, watching.complete]
      simp only [List.mem_map, members, Std.ExtTreeSet.mem_toList]
      constructor
      · rintro ⟨⟨coin, listed, rfl⟩, unspent⟩
        exact ⟨coin, ⟨listed, unspent⟩, rfl⟩
      · rintro ⟨coin, ⟨listed, unspent⟩, rfl⟩
        exact ⟨⟨coin, listed, rfl⟩, unspent⟩
    · intro coin listed
      exact watching.above coin ((members coin).mp listed).1

def SpendsFollowed (spentAt : OutPoint → Option Nat) (stores : ScanStores) :
    Prop :=
  SpendsMarked spentAt stores ∧ SpendsAbove spentAt stores.coins

theorem completeSweep_marked
    {cursor : Nat}
    (sweeping : Sweeping spentAt input late cursor stores)
    (done :
      input.stop < cursor ∨ ∀ outpoint, ¬ stores.coins.Watched outpoint) :
    SpendsFollowed spentAt
      (stores.recordSpendFrontier input.stop).saveState := by
  rcases done with beyond | nothing
  · have moved := sweeping.recordSpendFrontier beyond
    refine ⟨moved.marked ?_, moved.placed⟩
    intro height low high
    omega
  · constructor
    · intro frontier _ outpoint entry stored _ _ _ open_
      exact nothing outpoint
        ((watched_recordSpendFrontier stores _ outpoint).mp
          ⟨entry, stored, open_⟩)
    · intro outpoint entry stored
      refine sweeping.placed outpoint entry ?_
      simpa [ScanStores.saveState, ScanStores.recordSpendFrontier] using stored

theorem Sweeping.raise
    {cursor floor : Nat}
    (sweeping : Sweeping spentAt input late cursor stores)
    (watching : Watching spentAt stores watch coins)
    (lowest : watch.floor = some floor)
    {target : Nat}
    (below : target ≤ max cursor floor)
    (above : cursor ≤ target) :
    Sweeping spentAt input late target stores where
  placed := sweeping.placed
  swept outpoint watched height spent := by
    have low := sweeping.swept outpoint watched height spent
    obtain ⟨coin, listed, rfl⟩ :=
      List.mem_map.mp ((watching.complete outpoint).mp watched)
    have high := watching.above coin listed height spent
    have bound := watching.tallied.floor_le lowest listed
    omega
  reach := sweeping.reach
  frontier frontier reached := by
    rcases sweeping.frontier frontier reached with low | low
    · exact Or.inl low
    · exact Or.inr (by omega)

theorem checkpointSpend_sweeping
    (below : height < cursor) :
    Holds
      (fun stores =>
        Sweeping spentAt input late cursor stores ∧
          Watching spentAt stores watch coins)
      (checkpointSpend height)
      (fun _ stores =>
        Sweeping spentAt input late cursor stores ∧
          Watching spentAt stores watch coins)
      (fun _ _ => False) := by
  rintro stores ⟨sweeping, watching⟩
  exact ⟨sweeping.recordSpendFrontier below,
    watching.congr (watched_recordSpendFrontier stores height)⟩

theorem checkpointSpendIf_sweeping
    (due : Bool)
    (below : height < cursor) :
    Holds
      (fun stores =>
        Sweeping spentAt input late cursor stores ∧
          Watching spentAt stores watch coins)
      (checkpointSpendIf due height)
      (fun _ stores =>
        Sweeping spentAt input late cursor stores ∧
          Watching spentAt stores watch coins)
      (fun _ _ => False) :=
  Holds.ite (fun _ => checkpointSpend_sweeping below)
    (fun _ => Holds.pure (fun _ holds => holds))

/-- Past the cursor: a checkpoint, and on to the floor or to the next block. -/
theorem runSweep_advance
    {fuel request cursor : Nat}
    (due : Bool)
    (watch : WatchableSet)
    (coins : List (OutPoint × Nat))
    (continues :
      ∀ {next}, cursor < next →
        Holds
          (fun stores =>
            Sweeping spentAt input late next stores ∧
              Watching spentAt stores watch coins)
          (runSweep input.script.times input.script.sweep input.stop fuel
            (request + 1) watch next)
          (fun _ => SpendsFollowed spentAt)
          (fun _ => SpendsFollowed spentAt)) :
    Holds
      (fun stores =>
        Sweeping spentAt input late (cursor + 1) stores ∧
          Watching spentAt stores watch coins)
      (do
        checkpointSpendIf due cursor
        match watch.floor with
        | none => do
            checkpointSpend input.stop
            pure .completed
        | some floor =>
            if floor > cursor + 1 then do
              checkpointSpend (floor - 1)
              runSweep input.script.times input.script.sweep input.stop fuel
                (request + 1) watch floor
            else
              runSweep input.script.times input.script.sweep input.stop fuel
                (request + 1) watch (cursor + 1))
      (fun _ => SpendsFollowed spentAt)
      (fun _ => SpendsFollowed spentAt) := by
  refine Holds.move
    (checkpointSpendIf_sweeping _ (Nat.lt_succ_self cursor))
    (fun _ _ impossible => impossible.elim) (fun _ => ?_)
  cases lowest : watch.floor with
  | none =>
      rintro stores ⟨sweeping, watching⟩
      refine completeSweep_marked sweeping (Or.inr ?_)
      intro outpoint watched
      have listed := (watching.complete outpoint).mp watched
      rw [watching.tallied.floor_none lowest] at listed
      cases listed
  | some floor =>
      refine Holds.ite (fun above => ?_) (fun _ =>
        continues (Nat.lt_succ_self cursor))
      refine Holds.weaken
        (fun stores =>
          Sweeping spentAt input late floor stores ∧
            Watching spentAt stores watch coins)
        ?_ ?_
      · rintro stores ⟨sweeping, watching⟩
        exact ⟨sweeping.raise watching lowest (Nat.le_max_right _ _)
          (Nat.le_of_lt above), watching⟩
      · exact Holds.move (checkpointSpend_sweeping (by omega))
          (fun _ _ impossible => impossible.elim)
          (fun _ => continues (by omega))

theorem runSweep_marked
    (truthful : input.Truthful spentAt)
    (fuel : Nat)
    {request cursor : Nat}
    (started : request ≤ cursor)
    (enough : input.stop < cursor + fuel) :
    Holds
      (fun stores =>
        Sweeping spentAt input late cursor stores ∧
          Watching spentAt stores watch coins)
      (runSweep input.script.times input.script.sweep input.stop fuel request
        watch cursor)
      (fun _ => SpendsFollowed spentAt)
      (fun _ => SpendsFollowed spentAt) := by
  induction fuel generalizing request watch cursor coins with
  | zero =>
      rintro stores ⟨sweeping, _⟩
      exact completeSweep_marked sweeping (Or.inl enough)
  | succ fuel inductionHypothesis =>
      rw [runSweep]
      refine Holds.ite (fun high => ?_) (fun beyond => ?_)
      · refine Holds.ite (fun stops => ?_) (fun _ => ?_)
        · refine Holds.ite (fun _ => Holds.throw ?_) (fun positive => ?_)
          · rintro stores ⟨sweeping, _⟩
            refine ⟨sweeping.marked ?_, sweeping.placed⟩
            rintro height low _ ⟨calm, _⟩
            rw [calm request (by omega)] at stops
            cases stops
          · rintro stores ⟨sweeping, _⟩
            have moved :=
              sweeping.recordSpendFrontier
                (show cursor - 1 < cursor by omega)
            refine ⟨moved.marked ?_, moved.placed⟩
            rintro height low _ ⟨calm, _⟩
            rw [calm request (by omega)] at stops
            cases stops
        · cases answer :
              input.script.sweep.next request cursor watch.outpoints with
          | error reason =>
              refine Holds.throw ?_
              rintro stores ⟨sweeping, _⟩
              refine ⟨sweeping.marked ?_, sweeping.placed⟩
              rintro height low _ ⟨_, answers⟩
              obtain ⟨found, known⟩ :=
                answers cursor low request watch.outpoints
              rw [answer] at known
              cases known
          | ok found =>
              obtain ⟨blockHash, spent⟩ := found
              rintro stores ⟨sweeping, watching⟩
              obtain ⟨swept, rest, left_⟩ :=
                sweeping.withSpent truthful watching answer
              dsimp only
              rw [bind_apply_ok (recordSpent_eq ..)]
              exact runSweep_advance _
                (spent.toList.foldl WatchableSet.remove watch) rest
                (fun _ => inductionHypothesis (by omega) (by omega)) _
                ⟨swept, left_⟩
      · rintro stores ⟨sweeping, _⟩
        exact completeSweep_marked sweeping (Or.inl (by omega))

theorem watchable_sublist
    (sweepStart : Nat)
    (list : List (OutPoint × SpCoinEntry)) :
    ((list.filterMap (fun coin =>
      match coin.2.status with
      | .unspent | .spent _ none =>
          some (coin.1, coin.2.height.getD sweepStart)
      | _ => none)).map Prod.fst).Sublist (list.map Prod.fst) := by
  induction list with
  | nil =>
      exact List.Sublist.refl _
  | cons coin rest inductionHypothesis =>
      rw [List.filterMap_cons, List.map_cons]
      split
      · exact inductionHypothesis.cons _
      · next kept =>
          split at kept
          · cases kept
            exact inductionHypothesis.cons_cons _
          · cases kept
            exact inductionHypothesis.cons_cons _
          · cases kept

theorem distinct_watchable
    (coins : SpCoinStore)
    (sweepStart : Nat) :
    ((coins.watchable sweepStart).map Prod.fst).Nodup := by
  refine List.Nodup.sublist (watchable_sublist sweepStart coins.coins) ?_
  unfold SpCoinStore.coins
  rw [Std.ExtTreeMap.map_fst_toList_eq_keys]
  exact Std.ExtTreeMap.nodup_keys

theorem mem_watchable
    {coins : SpCoinStore}
    {sweepStart : Nat}
    {height : Nat} :
    (outpoint, height) ∈ coins.watchable sweepStart ↔
      ∃ entry, coins.get outpoint = some entry ∧
        entry.status.blockHash = none ∧
        entry.height.getD sweepStart = height := by
  rw [SpCoinStore.watchable, List.mem_filterMap]
  constructor
  · rintro ⟨⟨name, entry⟩, listed, kept⟩
    have stored : coins.get name = some entry :=
      Std.ExtTreeMap.mem_toList_iff_getElem?_eq_some.mp listed
    dsimp only at kept
    split at kept
    · next status =>
        cases kept
        exact ⟨entry, stored, by rw [status]; rfl, rfl⟩
    · next status =>
        cases kept
        exact ⟨entry, stored, by rw [status]; rfl, rfl⟩
    · cases kept
  · rintro ⟨entry, stored, open_, rfl⟩
    refine ⟨(outpoint, entry),
      Std.ExtTreeMap.mem_toList_iff_getElem?_eq_some.mpr stored, ?_⟩
    dsimp only
    cases status : entry.status with
    | unspent =>
        rfl
    | spent txid blockHash =>
        rw [status] at open_
        cases blockHash with
        | none =>
            rfl
        | some hash =>
            cases open_
    | mined hash =>
        rw [status] at open_
        cases open_

theorem watching_new
    (placed : SpendsAbove spentAt stores.coins)
    (sweepStart : Nat) :
    ∃ coins,
      Watching spentAt stores
        (WatchableSet.new (stores.coins.watchable sweepStart)) coins := by
  obtain ⟨coins, tallied, members⟩ :=
    WatchableSet.Tallied.new (distinct_watchable stores.coins sweepStart)
  refine ⟨coins, tallied, ?_, ?_⟩
  · intro outpoint
    simp only [List.mem_map, Prod.exists, members, mem_watchable]
    constructor
    · rintro ⟨entry, stored, open_⟩
      exact ⟨outpoint, _, ⟨entry, stored, open_, rfl⟩, rfl⟩
    · rintro ⟨_, _, ⟨entry, stored, open_, _⟩, rfl⟩
      exact ⟨entry, stored, open_⟩
  · rintro ⟨outpoint, height⟩ listed spent spends
    obtain ⟨entry, stored, _, rfl⟩ :=
      mem_watchable.mp ((members _).mp listed)
    obtain ⟨height, confirmed, low⟩ := placed outpoint entry stored
    rw [confirmed]
    exact low spent spends

theorem processSpends_marked
    (truthful : input.Truthful spentAt) :
    Holds
      (fun stores =>
        Sweeping spentAt input late (stores.effectiveSpendStart input.start)
          stores)
      (processSpends input.script input.start input.stop)
      (fun _ => SpendsFollowed spentAt)
      (fun _ => SpendsFollowed spentAt) := by
  refine Holds.bindRead (fun stores sweeping => ?_)
  obtain ⟨coins, watching⟩ :=
    watching_new sweeping.placed (stores.effectiveSpendStart input.start)
  dsimp only
  cases lowest :
      (WatchableSet.new
        (stores.coins.watchable
          (stores.effectiveSpendStart input.start))).floor with
  | none =>
      rintro _ rfl
      refine completeSweep_marked sweeping (Or.inr ?_)
      intro outpoint watched
      have listed := (watching.complete outpoint).mp watched
      rw [watching.tallied.floor_none lowest] at listed
      cases listed
  | some floor =>
      have raised :=
        sweeping.raise watching lowest (Nat.le_refl _) (Nat.le_max_left _ _)
      refine Holds.ite (fun beyond => ?_) (fun within => ?_)
      · rintro _ rfl
        exact completeSweep_marked raised (Or.inl beyond)
      · rintro _ rfl
        exact runSweep_marked truthful _ (Nat.zero_le _) (by omega) _
          ⟨raised, watching⟩

/-- The first height above the spend frontier. -/
def ScanState.unswept (state : ScanState) : Nat :=
  match state.lastSpendHeight with
  | some frontier => frontier + 1
  | none => 0

/-- A block whose outputs are spent above it, and within reach where the spend
frontier is already past the spend. -/
structure Gatherable
    (spentAt : OutPoint → Option Nat)
    (input : ScanInput)
    (before : ScanStores)
    (block : BlockOutcome) : Prop where
  low : input.start ≤ block.height
  outputs :
    ∀ (outpoint : OutPoint) (output : OwnedOutput),
      block.outs[outpoint]? = some output →
      output.blockheight = some block.height ∧
        ∀ height, spentAt outpoint = some height → block.height ≤ height
  late :
    ∀ outpoint ∈ block.outs, ¬ before.coins.Marked outpoint →
      ∀ height, spentAt outpoint = some height →
        height < before.state.unswept → input.Reaches height

/-- What the receive pass leaves for the sweep. -/
structure Gathering
    (spentAt : OutPoint → Option Nat)
    (input : ScanInput)
    (before stores : ScanStores) : Prop where
  placed : SpendsAbove spentAt stores.coins
  marked :
    ∀ outpoint, before.coins.Marked outpoint → stores.coins.Marked outpoint
  late :
    ∀ outpoint, stores.coins.Watched outpoint →
      ∀ height, spentAt outpoint = some height →
        height < before.state.unswept →
        input.start ≤ height ∧ input.Reaches height
  frontier :
    stores.state.lastSpendHeight = before.state.lastSpendHeight

theorem SpCoinStore.Marked.not_watched
    {coins : SpCoinStore}
    (marked : coins.Marked outpoint) :
    ¬ coins.Watched outpoint := by
  obtain ⟨entry, stored, closed⟩ := marked
  rintro ⟨other, found, open_⟩
  rw [stored] at found
  cases found
  exact closed open_

theorem Gathering.congr
    {before stores other : ScanStores}
    (gathering : Gathering spentAt input before stores)
    (same :
      ∀ outpoint, other.coins.get outpoint = stores.coins.get outpoint)
    (sameFrontier :
      other.state.lastSpendHeight = stores.state.lastSpendHeight) :
    Gathering spentAt input before other := by
  constructor
  · intro outpoint entry stored
    rw [same] at stored
    exact gathering.placed outpoint entry stored
  · intro outpoint marked
    unfold SpCoinStore.Marked
    rw [same]
    exact gathering.marked outpoint marked
  · intro outpoint watched
    unfold SpCoinStore.Watched at watched
    rw [same] at watched
    exact gathering.late outpoint watched
  · rw [sameFrontier, gathering.frontier]

variable {before stores : ScanStores}

theorem Gathering.withFound
    (gathering : Gathering spentAt input before stores)
    {block : BlockOutcome}
    (gatherable : Gatherable spentAt input before block)
    (times : Nat → Option Nat) :
    Gathering spentAt input before (stores.withFound times block) := by
  have looked := get_coins_withFound times block stores
  have keeps :
      ∀ outpoint, stores.coins.Marked outpoint →
        (stores.withFound times block).coins.Marked outpoint := by
    rintro outpoint ⟨entry, stored, closed⟩
    have spent : entry.status ≠ .unspent := by
      intro unspent
      rw [unspent] at closed
      exact closed rfl
    unfold SpCoinStore.Marked
    rw [looked]
    cases block.outs[outpoint]? with
    | none =>
        exact ⟨entry, stored, closed⟩
    | some output =>
        refine ⟨_, rfl, ?_⟩
        rw [stored, ScanStores.keepStatus, if_pos spent]
        exact closed
  constructor
  · intro outpoint entry stored
    rw [looked] at stored
    cases paid : block.outs[outpoint]? with
    | none =>
        rw [paid] at stored
        exact gathering.placed outpoint entry stored
    | some output =>
        rw [paid] at stored
        cases stored
        obtain ⟨height, spends⟩ := gatherable.outputs outpoint output paid
        refine ⟨block.height, ?_, spends⟩
        unfold SpCoinEntry.height ScanStores.keepStatus
        dsimp only
        split
        · exact height
        · split
          · exact height
          · exact height
  · exact fun outpoint marked =>
      keeps outpoint (gathering.marked outpoint marked)
  · intro outpoint watched height spends below
    cases paid : block.outs[outpoint]? with
    | none =>
        refine gathering.late outpoint ?_ height spends below
        unfold SpCoinStore.Watched at watched
        rw [looked, paid] at watched
        exact watched
    | some output =>
        have low := (gatherable.outputs outpoint output paid).2 height spends
        refine ⟨Nat.le_trans gatherable.low low, ?_⟩
        refine gatherable.late outpoint
          (BTreeMap.mem_iff_getElem?.mpr ⟨output, paid⟩) ?_ height spends below
        intro marked
        exact (keeps outpoint
          (gathering.marked outpoint marked)).not_watched watched
  · have same : (stores.withFound times block).state = stores.state := by
      unfold ScanStores.withFound
      split <;> rfl
    rw [same, gathering.frontier]

theorem receiveRules_gathering
    (before : ScanStores) :
    ReceiveRules times input.start input.stop
      (fun committed _ stores =>
        (∀ block ∈ committed, Gatherable spentAt input before block) →
          Gathering spentAt input before stores) where
  commit committed _ stores block _ _ holds := by
    intro gatherable
    refine (holds (fun block member => gatherable block ?_)).withFound
      (gatherable block ?_) times
    · exact List.mem_append_left _ member
    · simp
  frontier committed collector stores tip _ low _ filled holds gatherable := by
    refine (holds gatherable).congr (fun _ => rfl) ?_
    rw [ScanState.lastSpendHeight_persist]
    exact (ScanState.advanced_advanceTo stores.state low filled).spend
  save committed _ stores holds gatherable :=
    (holds gatherable).congr
      (fun _ => by simp [ScanStores.saveState])
      (by simp [ScanStores.saveState])

theorem SpendsFollowed.unswept_le
    (followed : SpendsFollowed spentAt stores)
    (watched : stores.coins.Watched outpoint)
    {height : Nat}
    (spends : spentAt outpoint = some height) :
    stores.state.unswept ≤ height := by
  unfold ScanState.unswept
  cases swept : stores.state.lastSpendHeight with
  | none =>
      exact Nat.zero_le _
  | some frontier =>
      obtain ⟨entry, stored, open_⟩ := watched
      by_contra below
      dsimp only at below
      exact followed.1 frontier swept outpoint entry stored height spends
        (by omega) open_

theorem Gathering.followed
    (gathering : Gathering spentAt input before stores)
    (nothing : ∀ height, ¬ input.Reaches height) :
    SpendsFollowed spentAt stores := by
  refine ⟨?_, gathering.placed⟩
  intro frontier swept outpoint entry stored height spends below open_
  rw [gathering.frontier] at swept
  have late : height < before.state.unswept := by
    unfold ScanState.unswept
    rw [swept]
    dsimp only
    omega
  exact nothing height
    (gathering.late outpoint ⟨entry, stored, open_⟩ height spends late).2

theorem Gathering.sweeping
    (gathering : Gathering spentAt input before stores)
    (unstarted : before.state.lastSpendHeight = none → input.start = 0) :
    Sweeping spentAt input before.state.unswept
      (stores.effectiveSpendStart input.start) stores := by
  have late := gathering.late
  unfold ScanState.unswept at late ⊢
  have swept := gathering.frontier
  refine ⟨gathering.placed, ?_, ?_, ?_⟩
  · intro outpoint watched height spends
    unfold ScanStores.effectiveSpendStart
    rw [swept]
    have from_ := late outpoint watched height spends
    cases known : before.state.lastSpendHeight with
    | none =>
        rw [unstarted known]
        exact Nat.zero_le _
    | some frontier =>
        rw [known] at from_
        dsimp only at from_ ⊢
        split
        · by_contra low
          exact low (from_ (by omega)).1
        · by_contra low
          have := (from_ (by omega)).1
          omega
  · intro outpoint watched height spends below
    have reaches := (late outpoint watched height spends below).2
    exact ⟨reaches.range, reaches.sweeps⟩
  · intro frontier reached
    rw [swept] at reached
    rw [reached]
    exact Or.inl (Nat.lt_succ_self frontier)

theorem SpendsFollowed.gathering
    (followed : SpendsFollowed spentAt before) :
    Gathering spentAt input before before where
  placed := followed.2
  marked _ marked := marked
  late outpoint watched height spends below := by
    have low := followed.unswept_le watched spends
    omega
  frontier := rfl

theorem processBlocks_gathering
    (followed : SpendsFollowed spentAt before)
    (range : input.start ≤ input.stop)
    (gatherable :
      ∀ block ∈ committedBlocks input.start input.stop input.script.arrivals,
        Gatherable spentAt input before block) :
    Holds (fun stores => stores = before)
      (processBlocks input.script input.start input.stop)
      (fun outcome stores =>
        Gathering spentAt input before stores ∧
          (outcome ≠ .completed → ∀ height, ¬ input.Reaches height))
      (fun _ stores =>
        Gathering spentAt input before stores ∧
          ∀ height, ¬ input.Reaches height) := by
  have received :
      Holds (fun stores => stores = before)
        (processBlocks input.script input.start input.stop)
        (fun _ => Gathering spentAt input before)
        (fun _ => Gathering spentAt input before) := by
    have rules :
        ReceiveRules input.script.times input.start input.stop
          (fun committed _ stores =>
            (∀ block ∈ committed, Gatherable spentAt input before block) →
              Gathering spentAt input before stores) :=
      receiveRules_gathering input.script.times before
    refine Holds.conseq rules.processBlocks ?_ ?_ ?_
    · rintro _ rfl _
      exact followed.gathering
    · rintro _ _ ⟨_, holds, _⟩
      exact holds gatherable
    · rintro _ _ ⟨_, holds, _⟩
      exact holds gatherable
  by_cases receives :
      ReceivesAll input.start input.stop input.script.arrivals
  · refine Holds.conseq
      (Holds.and received (processBlocks_completes range receives))
      (fun _ same => ⟨same, True.intro⟩) ?_ ?_
    · rintro outcome stores ⟨holds, completed⟩
      exact ⟨holds, fun incomplete => absurd completed incomplete⟩
    · rintro _ _ ⟨_, impossible⟩
      exact impossible.elim
  · have nothing : ∀ height, ¬ input.Reaches height :=
      fun _ reaches => receives reaches.receives
    exact Holds.conseq received (fun _ same => same)
      (fun _ _ holds => ⟨holds, fun _ => nothing⟩)
      (fun _ _ holds => ⟨holds, nothing⟩)

theorem scanPasses_followed
    (truthful : input.Truthful spentAt)
    (followed : SpendsFollowed spentAt before)
    (unstarted : before.state.lastSpendHeight = none → input.start = 0)
    (gatherable :
      ∀ block ∈ committedBlocks input.start input.stop input.script.arrivals,
        Gatherable spentAt input before block) :
    Holds (fun stores => stores = before)
      (scanPasses input.script input.start input.stop)
      (fun _ => SpendsFollowed spentAt)
      (fun _ => SpendsFollowed spentAt) := by
  have sweeps :
      Holds (Gathering spentAt input before)
        (processSpends input.script input.start input.stop)
        (fun _ => SpendsFollowed spentAt)
        (fun _ => SpendsFollowed spentAt) :=
    Holds.conseq (processSpends_marked truthful)
      (fun _ gathering => gathering.sweeping unstarted)
      (fun _ _ reached => reached) (fun _ _ failed => failed)
  refine Holds.bindGet (fun read _ => ?_)
  refine Holds.ite (fun _ => Holds.throw ?_) (fun _ => ?_)
  · rintro _ rfl
    exact followed
  · refine Holds.ite (fun range => ?_) (fun _ => ?_)
    · refine Holds.bind
        (Holds.conseq (processBlocks_gathering followed range gatherable)
          (fun _ same => same) (fun _ _ reached => reached) ?_) ?_
      · rintro _ _ ⟨gathering, nothing⟩
        exact gathering.followed nothing
      · intro outcome
        cases outcome with
        | completed =>
            exact Holds.weaken _ (fun _ reached => reached.1) sweeps
        | interrupted lastScanned lastSpend =>
            refine Holds.pure ?_
            rintro _ ⟨gathering, stopped⟩
            exact gathering.followed (stopped (by simp))
    · refine Holds.weaken _ ?_ sweeps
      rintro _ rfl
      exact followed.gathering

theorem startSpendFrontier_cases
    (start : Nat)
    (stores : ScanStores) :
    (startSpendFrontier start stores = .ok () stores ∧
        (stores.state.lastSpendHeight = none → start = 0)) ∨
      stores.state.lastSpendHeight = none ∧ 1 ≤ start ∧
        startSpendFrontier start stores =
          .ok () (stores.recordSpendFrontier (start - 1)).saveState := by
  rw [startSpendFrontier, get_bind_apply]
  by_cases first :
      stores.state.lastSpendHeight.isNone = true ∧ start ≥ 1
  · rw [if_pos first]
    exact Or.inr ⟨Option.isNone_iff_eq_none.mp first.1, first.2, rfl⟩
  · rw [if_neg first]
    refine Or.inl ⟨rfl, fun unstarted => ?_⟩
    by_contra positive
    exact first ⟨by rw [unstarted]; rfl, by omega⟩

theorem SpendsFollowed.scan
    (followed : SpendsFollowed spentAt stores)
    (unforked : input.Unforked stores)
    (truthful : input.Truthful spentAt)
    (prompt : input.Prompt spentAt stores) :
    SpendsFollowed spentAt (input.after stores) := by
  rcases unforked.processScan with ⟨_, same⟩ | ⟨blocks, run⟩
  · rw [same]
    exact followed
  · rw [run]
    -- What holds of a block in range, but for what the spend frontier is past.
    have delivered :
        ∀ (before : ScanStores),
          (∀ block ∈ input.committed stores, ∀ outpoint ∈ block.outs,
            ¬ before.coins.Marked outpoint →
            ∀ height, spentAt outpoint = some height →
              height < before.state.unswept → input.Reaches height) →
          ∀ block ∈
              committedBlocks input.start input.stop input.script.arrivals,
            Gatherable spentAt input before block := by
      intro before late block member
      obtain ⟨⟨arrival, listed, outcome⟩, low, high⟩ :=
        mem_committedBlocks member
      have own := truthful.outputs arrival listed block outcome
      refine ⟨low, ?_, late block ?_⟩
      · intro outpoint output paid
        exact ⟨(own outpoint output paid).1, (own outpoint output paid).2.2⟩
      · rw [blocks, ScanInput.delivered, if_pos (by omega)]
        exact member
    rcases startSpendFrontier_cases input.start (input.restamped stores) with
      ⟨stays, zero⟩ | ⟨unstarted, positive, moves⟩
    · have begun : SpendsFollowed spentAt (input.restamped stores) :=
        followed
      rw [ScanInput.unforkedScan, bind_apply_ok stays]
      refine Holds.finalState
        (scanPasses_followed truthful begun zero (delivered _ ?_)) _ rfl
      intro block member outpoint paid unmarked height spends below
      cases swept : stores.state.lastSpendHeight with
      | none =>
          have known : (input.restamped stores).state.lastSpendHeight = none :=
            swept
          rw [ScanState.unswept, known] at below
          cases below
      | some frontier =>
          have known :
              (input.restamped stores).state.lastSpendHeight =
                some frontier :=
            swept
          rw [ScanState.unswept, known] at below
          exact prompt.late frontier swept block member outpoint paid unmarked
            height spends (by dsimp only at below; omega)
    · rw [ScanInput.unforkedScan, bind_apply_ok moves]
      have reached :
          ((input.restamped stores).recordSpendFrontier
              (input.start - 1)).saveState.state.lastSpendHeight =
            some (input.start - 1) := by
        simp [ScanStores.saveState, ScanStores.recordSpendFrontier,
          ScanState.advanceSpendFrontier, unstarted]
      refine Holds.finalState
        (scanPasses_followed truthful ⟨?_, ?_⟩ ?_ (delivered _ ?_)) _ rfl
      · intro frontier swept outpoint entry stored height spends below open_
        rw [reached] at swept
        cases swept
        have watched :=
          (watched_recordSpendFrontier (input.restamped stores) _
            outpoint).mp ⟨entry, stored, open_⟩
        have low := prompt.first unstarted outpoint watched height spends
        omega
      · intro outpoint entry stored
        refine followed.2 outpoint entry ?_
        simpa [ScanStores.saveState, ScanStores.recordSpendFrontier,
          ScanInput.restamped] using stored
      · intro impossible
        rw [reached] at impossible
        cases impossible
      · intro block member outpoint paid _ height spends below
        rw [ScanState.unswept, reached] at below
        dsimp only at below
        rw [blocks, ScanInput.delivered] at member
        split at member
        · obtain ⟨⟨arrival, listed, outcome⟩, low, _⟩ :=
            mem_committedBlocks member
          obtain ⟨output, found⟩ := BTreeMap.mem_iff_getElem?.mp paid
          have above :=
            (truthful.outputs arrival listed block outcome outpoint output
              found).2.2 height spends
          omega
        · cases member

end Sweep

namespace ScanRun

/-- A payment to the wallet in block 10. -/
def sampleCoin : BTreeMap OutPoint OwnedOutput :=
  Std.ExtTreeMap.insert ∅ ⟨1, 0⟩ ⟨some 10, 1, 50, 7, none, .unspent⟩

/-- The chain spends that payment in block 15. -/
def sampleSpentAt (outpoint : OutPoint) : Option Nat :=
  if outpoint = ⟨1, 0⟩ then some 15 else none

/-- A scan from 10 to 20 that is stopped after its first block. -/
def stoppedScan : ScanInput where
  script :=
    { times := fun _ => none
      chainHash := fun _ height => .ok (sampleHash height)
      arrivals := [⟨.ok ⟨10, sampleHash 10, sampleCoin⟩, false, true⟩]
      stopAtEnd := false
      sweep := unanswered }
  start := 10
  stop := 20

theorem sampleScan_truthful
    (spentAt : OutPoint → Option Nat)
    (height : Nat) :
    (sampleScan height).Truthful spentAt where
  outputs := by
    intro arrival listed block outcome outpoint output paid
    cases List.mem_singleton.mp listed
    cases outcome
    simp at paid
  spends := by
    intro _ _ _ _ _ impossible
    cases impossible

theorem stoppedScan_truthful : stoppedScan.Truthful sampleSpentAt where
  outputs := by
    intro arrival listed block outcome outpoint output paid
    cases List.mem_singleton.mp listed
    cases outcome
    dsimp only at paid
    rw [sampleCoin, BTreeMap.getElem?_insert_eq] at paid
    split at paid
    · next same =>
        cases paid
        refine ⟨rfl, rfl, ?_⟩
        intro height spends
        rw [sampleSpentAt, if_pos same.symm] at spends
        cases spends
        decide
    · simp at paid
  spends := by
    intro _ _ _ _ _ impossible
    cases impossible

theorem stoppedScan_unforked :
    stoppedScan.Unforked ((sampleScan 20).after sampleWallet) := by
  intro kept hash found depth answer answered
  cases answered
  have known :
      ((sampleScan 20).after sampleWallet).state.scanned.toList =
        [(20, sampleHash 20)] := by
    decide +kernel
  have member := Std.ExtTreeMap.mem_toList_iff_getElem?_eq_some.mpr found
  rw [known, List.mem_singleton] at member
  cases member
  rfl

end ScanRun

end Bwk
