import Bwk.SpSweep

namespace Bwk

/-!
# What one sweep marks

A sweep against a chain calls `record_inputs` once for each height at which a
watched coin is spent.  Its cursor skips only heights at which no open coin is
old enough to be spent, so that everything below the cursor is accounted for,
and the spend frontier it records stays below the cursor.
-/

/-- A chain as a sweep sees it: the hash and the spends of each block. -/
structure SpendChain where
  hash : Nat → BlockHash
  spends : Nat → OutPoint → Prop

/-- What the scanner answers for a height is the hash of the block and exactly
the watched outpoints that the block spends. -/
def SweepScript.Exact (script : SweepScript) (chain : SpendChain) : Prop :=
  ∀ request cursor watch blockHash spent,
    script.next request cursor watch = .ok (blockHash, spent) →
      blockHash = chain.hash cursor ∧
        ∀ outpoint,
          outpoint ∈ spent ↔
            outpoint ∈ watch ∧ chain.spends cursor outpoint

/-- One call of `record_inputs`. -/
structure SpendMark where
  height : Nat
  blockHash : BlockHash
  spent : BTreeSet OutPoint

/-- One of the calls names the outpoint. -/
def MarkedBy (marks : List SpendMark) (outpoint : OutPoint) : Prop :=
  ∃ mark ∈ marks, outpoint ∈ mark.spent

/--
The calls of a sweep of `[resume, stop]` that has come to `cursor`, and the
coins they leave of those before.
-/
structure Swept
    (chain : SpendChain)
    (before : SpCoinStore)
    (resume stop cursor : Nat)
    (marks : List SpendMark)
    (coins : SpCoinStore) : Prop where
  ordered :
    marks.Pairwise (fun earlier later => earlier.height < later.height)
  once :
    marks.Pairwise (fun earlier later =>
      ∀ outpoint ∈ earlier.spent, outpoint ∉ later.spent)
  range :
    ∀ mark ∈ marks,
      resume ≤ mark.height ∧ mark.height ≤ stop ∧ mark.height < cursor
  chained :
    ∀ mark ∈ marks,
      mark.blockHash = chain.hash mark.height ∧
        ∀ outpoint ∈ mark.spent, chain.spends mark.height outpoint
  changed :
    ∀ mark ∈ marks, ∀ outpoint ∈ mark.spent,
      ∃ entry, before.get outpoint = some entry ∧
        entry.status.blockHash = none ∧
        coins.get outpoint =
          some (entry.withStatus (entry.status.confirmed mark.blockHash))
  unchanged :
    ∀ outpoint, ¬ MarkedBy marks outpoint →
      coins.get outpoint = before.get outpoint
  /-- Nothing a coin of its height could have been spent in is missed. -/
  complete :
    ∀ outpoint height, (outpoint, height) ∈ before.watchable resume →
      ∀ spentAt, chain.spends spentAt outpoint →
        resume ≤ spentAt → height ≤ spentAt → spentAt < cursor →
          MarkedBy marks outpoint

/-- The frontier is the first one, or that raised to a height below `cursor`. -/
def RaisedBelow
    (cursor : Nat)
    (first frontier : Option Nat) : Prop :=
  frontier = first ∨
    ∃ height < cursor, frontier = some (max (first.getD 0) height)

def SweepEnds
    (chain : SpendChain)
    (before : ScanStores)
    (resume stop : Nat)
    (outcome : SpScanOutcome)
    (after : ScanStores) : Prop :=
  ∃ marks reached,
    Swept chain before.coins resume stop (reached + 1) marks after.coins ∧
      after.state.lastSpendHeight =
        some (max (before.state.lastSpendHeight.getD 0) reached) ∧
      match outcome with
      | .completed =>
          reached = stop ∨
            stop < reached ∧
              ∀ outpoint height,
                (outpoint, height) ∈ before.coins.watchable resume →
                  height ≤ reached → MarkedBy marks outpoint
      | .interrupted _ lastSpend =>
          reached < stop ∧ lastSpend = after.state.lastSpendHeight

section

variable
    {chain : SpendChain}
    {before : ScanStores}
    {script : SweepScript}
    {times : Nat → Option Nat}
    {resume stop : Nat}

theorem RaisedBelow.advance
    {first : Option Nat}
    {state : ScanState}
    {cursor : Nat}
    (raised : RaisedBelow cursor first state.lastSpendHeight)
    (height : Nat) :
    ∃ reached, (reached = height ∨ height ≤ reached ∧ reached < cursor) ∧
      (state.advanceSpendFrontier height).lastSpendHeight =
        some (max (first.getD 0) reached) := by
  rcases raised with same | ⟨other, below, shape⟩
  · cases known : first with
    | none =>
        rw [known] at same
        refine ⟨height, Or.inl rfl, ?_⟩
        simp [ScanState.advanceSpendFrontier, same]
    | some frontier =>
        rw [known] at same
        exact ⟨height, Or.inl rfl,
          state.lastSpendHeight_advanceSpendFrontier height same⟩
  · refine ⟨max other height, ?_, ?_⟩
    · omega
    · rw [state.lastSpendHeight_advanceSpendFrontier height shape,
        Nat.max_assoc]

namespace Swept

variable
    {first coins : SpCoinStore}
    {cursor : Nat}
    {marks : List SpendMark}

theorem begun (lowest : cursor ≤ resume) :
    Swept chain first resume stop cursor [] first where
  ordered := List.Pairwise.nil
  once := List.Pairwise.nil
  range _ impossible := absurd impossible List.not_mem_nil
  chained _ impossible := absurd impossible List.not_mem_nil
  changed _ impossible := absurd impossible List.not_mem_nil
  unchanged _ _ := rfl
  complete _ _ _ _ _ _ _ _ := by omega

theorem raise
    (swept : Swept chain first resume stop cursor marks coins)
    {target : Nat}
    (above : cursor ≤ target)
    (missed :
      ∀ outpoint height, (outpoint, height) ∈ first.watchable resume →
        ∀ spentAt, chain.spends spentAt outpoint → height ≤ spentAt →
          cursor ≤ spentAt → spentAt < target → MarkedBy marks outpoint) :
    Swept chain first resume stop target marks coins where
  ordered := swept.ordered
  once := swept.once
  range mark listed := by
    have within := swept.range mark listed
    omega
  chained := swept.chained
  changed := swept.changed
  unchanged := swept.unchanged
  complete outpoint height watched spentAt spends low old below := by
    by_cases passed : spentAt < cursor
    · exact swept.complete outpoint height watched spentAt spends low old
        passed
    · exact missed outpoint height watched spentAt spends old (by omega) below

theorem record
    (swept : Swept chain first resume stop cursor marks coins)
    (low : resume ≤ cursor)
    (high : cursor ≤ stop)
    {spent : BTreeSet OutPoint}
    (found :
      ∀ outpoint ∈ spent,
        first.Watched outpoint ∧ ¬ MarkedBy marks outpoint ∧
          chain.spends cursor outpoint)
    (all :
      ∀ outpoint, first.Watched outpoint → chain.spends cursor outpoint →
        outpoint ∈ spent ∨ MarkedBy marks outpoint)
    {after : SpCoinStore}
    (recorded :
      ∀ outpoint,
        after.get outpoint =
          if outpoint ∈ spent then
            (coins.get outpoint).map (fun entry =>
              entry.withStatus
                (entry.status.confirmed (chain.hash cursor)))
          else
            coins.get outpoint) :
    Swept chain first resume stop (cursor + 1)
      (marks ++ [⟨cursor, chain.hash cursor, spent⟩]) after where
  ordered := by
    refine List.pairwise_append.mpr
      ⟨swept.ordered, List.pairwise_singleton .., ?_⟩
    intro earlier listed later last
    rw [List.mem_singleton.mp last]
    exact (swept.range earlier listed).2.2
  once := by
    refine List.pairwise_append.mpr
      ⟨swept.once, List.pairwise_singleton .., ?_⟩
    intro earlier listed later last outpoint named again
    rw [List.mem_singleton.mp last] at again
    exact (found outpoint again).2.1 ⟨earlier, listed, named⟩
  range mark listed := by
    rcases List.mem_append.mp listed with before | last
    · have within := swept.range mark before
      omega
    · rw [List.mem_singleton.mp last]
      exact ⟨low, high, Nat.lt_succ_self cursor⟩
  chained mark listed := by
    rcases List.mem_append.mp listed with before | last
    · exact swept.chained mark before
    · rw [List.mem_singleton.mp last]
      exact ⟨rfl, fun outpoint named => (found outpoint named).2.2⟩
  changed mark listed outpoint named := by
    rcases List.mem_append.mp listed with before | last
    · have other : outpoint ∉ spent := fun again =>
        (found outpoint again).2.1 ⟨mark, before, named⟩
      rw [recorded, if_neg other]
      exact swept.changed mark before outpoint named
    · rw [List.mem_singleton.mp last] at named ⊢
      obtain ⟨⟨entry, stored, open_⟩, unmarked, _⟩ := found outpoint named
      refine ⟨entry, stored, open_, ?_⟩
      rw [recorded, if_pos named, swept.unchanged outpoint unmarked, stored]
      rfl
  unchanged outpoint unmarked := by
    have other : outpoint ∉ spent := fun named =>
      unmarked ⟨_, List.mem_append_right _ List.mem_cons_self, named⟩
    rw [recorded, if_neg other]
    refine swept.unchanged outpoint ?_
    rintro ⟨mark, listed, named⟩
    exact unmarked ⟨mark, List.mem_append_left _ listed, named⟩
  complete outpoint height watched spentAt spends above old below := by
    have kept :
        MarkedBy marks outpoint →
          MarkedBy (marks ++ [⟨cursor, chain.hash cursor, spent⟩])
            outpoint := by
      rintro ⟨mark, listed, named⟩
      exact ⟨mark, List.mem_append_left _ listed, named⟩
    by_cases passed : spentAt < cursor
    · exact kept
        (swept.complete outpoint height watched spentAt spends above old
          passed)
    · have here : spentAt = cursor := by omega
      rw [here] at spends
      obtain ⟨entry, stored, open_, _⟩ := mem_watchable.mp watched
      rcases all outpoint ⟨entry, stored, open_⟩ spends with named | marked
      · exact ⟨_, List.mem_append_right _ List.mem_cons_self, named⟩
      · exact kept marked

end Swept

theorem ScanStores.coins_checkpoint
    (height : Nat)
    (stores : ScanStores)
    (outpoint : OutPoint) :
    (stores.recordSpendFrontier height).saveState.coins.get outpoint =
      stores.coins.get outpoint := by
  simp [ScanStores.saveState, ScanStores.recordSpendFrontier]

theorem ScanStores.lastSpendHeight_checkpoint
    (height : Nat)
    (stores : ScanStores) :
    (stores.recordSpendFrontier height).saveState.state.lastSpendHeight =
      (stores.state.advanceSpendFrontier height).lastSpendHeight := by
  simp [ScanStores.saveState, ScanStores.recordSpendFrontier]

variable {marks : List SpendMark}

theorem Swept.checkpoint
    {first : SpCoinStore}
    {cursor : Nat}
    {stores : ScanStores}
    (swept : Swept chain first resume stop cursor marks stores.coins)
    (height : Nat) :
    Swept chain first resume stop cursor marks
      (stores.recordSpendFrontier height).saveState.coins :=
  { swept with
    changed := fun mark listed outpoint named => by
      rw [ScanStores.coins_checkpoint]
      exact swept.changed mark listed outpoint named
    unchanged := fun outpoint unmarked => by
      rw [ScanStores.coins_checkpoint]
      exact swept.unchanged outpoint unmarked }

/-- A sweep that has come to `cursor`, and the coins it still watches. -/
structure Underway
    (chain : SpendChain)
    (before : ScanStores)
    (resume stop cursor : Nat)
    (watch : WatchableSet)
    (marks : List SpendMark)
    (coins : List (OutPoint × Nat))
    (stores : ScanStores) : Prop where
  swept : Swept chain before.coins resume stop cursor marks stores.coins
  tallied : watch.Tallied coins
  opens :
    ∀ coin, coin ∈ coins ↔
      coin ∈ before.coins.watchable resume ∧ ¬ MarkedBy marks coin.1
  raised :
    RaisedBelow cursor before.state.lastSpendHeight
      stores.state.lastSpendHeight
  /-- A cursor past the end has jumped there. -/
  jumped :
    cursor ≤ stop + 1 ∨
      stores.state.lastSpendHeight =
          some (max (before.state.lastSpendHeight.getD 0) (cursor - 1)) ∧
        ∀ coin ∈ coins, cursor ≤ coin.2

namespace Underway

variable
    {cursor : Nat}
    {watch : WatchableSet}
    {marks : List SpendMark}
    {coins : List (OutPoint × Nat)}
    {stores : ScanStores}

theorem checkpoint
    (underway :
      Underway chain before resume stop cursor watch marks coins stores)
    {height : Nat}
    (below : height < cursor) :
    Underway chain before resume stop cursor watch marks coins
      (stores.recordSpendFrontier height).saveState where
  swept := underway.swept.checkpoint height
  tallied := underway.tallied
  opens := underway.opens
  raised := by
    obtain ⟨reached, here, shape⟩ := underway.raised.advance height
    rw [ScanStores.lastSpendHeight_checkpoint, shape]
    exact Or.inr ⟨reached, by omega, rfl⟩
  jumped := by
    rcases underway.jumped with within | ⟨shape, open_⟩
    · exact Or.inl within
    · refine Or.inr ⟨?_, open_⟩
      rw [ScanStores.lastSpendHeight_checkpoint,
        stores.state.lastSpendHeight_advanceSpendFrontier height shape,
        Nat.max_assoc]
      congr 2
      omega

theorem jump
    (underway :
      Underway chain before resume stop cursor watch marks coins stores)
    {floor : Nat}
    (lowest : watch.floor = some floor)
    (above : cursor < floor) :
    Underway chain before resume stop floor watch marks coins
      (stores.recordSpendFrontier (floor - 1)).saveState := by
  have old : ∀ coin ∈ coins, floor ≤ coin.2 := fun coin listed =>
    underway.tallied.floor_le lowest listed
  obtain ⟨reached, here, shape⟩ :=
    underway.raised.advance (floor - 1)
  have there : reached = floor - 1 := by omega
  constructor
  · refine
      (underway.swept.raise (Nat.le_of_lt above) ?_).checkpoint (floor - 1)
    intro outpoint height watched spentAt _ young _ below
    by_contra unmarked
    have bound := old _ ((underway.opens _).mpr ⟨watched, unmarked⟩)
    dsimp only at bound
    omega
  · exact underway.tallied
  · exact underway.opens
  · rw [ScanStores.lastSpendHeight_checkpoint, shape]
    exact Or.inr ⟨reached, by omega, rfl⟩
  · refine Or.inr ⟨?_, old⟩
    rw [ScanStores.lastSpendHeight_checkpoint, shape, there]

theorem ends
    (underway :
      Underway chain before resume stop cursor watch marks coins stores)
    (past : stop < cursor) :
    SweepEnds chain before resume stop .completed
      (stores.recordSpendFrontier stop).saveState := by
  have whole : cursor - 1 + 1 = cursor := by omega
  obtain ⟨reached, here, shape⟩ := underway.raised.advance stop
  refine ⟨marks, cursor - 1, ?_, ?_, ?_⟩
  · rw [whole]
    exact underway.swept.checkpoint stop
  · rw [ScanStores.lastSpendHeight_checkpoint]
    rcases underway.jumped with within | ⟨moved, _⟩
    · have there : reached = cursor - 1 := by omega
      rw [shape, there]
    · rw [stores.state.lastSpendHeight_advanceSpendFrontier stop moved,
        Nat.max_assoc]
      congr 2
      omega
  · rcases underway.jumped with within | ⟨_, old⟩
    · exact Or.inl (by omega)
    · by_cases last : cursor - 1 = stop
      · exact Or.inl last
      · refine Or.inr ⟨by omega, ?_⟩
        intro outpoint height watched young
        by_contra unmarked
        have bound :=
          old _ ((underway.opens (outpoint, height)).mpr ⟨watched, unmarked⟩)
        dsimp only at bound
        omega

theorem ends_idle
    (underway :
      Underway chain before resume stop cursor watch marks coins stores)
    (unwatched : watch.floor = none)
    (within : cursor ≤ stop + 1) :
    SweepEnds chain before resume stop .completed
      (stores.recordSpendFrontier stop).saveState := by
  have none_ := underway.tallied.floor_none unwatched
  obtain ⟨reached, here, shape⟩ := underway.raised.advance stop
  have there : reached = stop := by omega
  refine ⟨marks, stop, ?_, ?_, Or.inl rfl⟩
  · refine (underway.swept.raise within ?_).checkpoint stop
    intro outpoint height watched _ _ _ _ _
    by_contra unmarked
    have listed :=
      (underway.opens (outpoint, height)).mpr ⟨watched, unmarked⟩
    rw [none_] at listed
    cases listed
  · rw [ScanStores.lastSpendHeight_checkpoint, shape, there]

theorem ends_interrupted
    (underway :
      Underway chain before resume stop cursor watch marks coins stores)
    (positive : cursor ≠ 0)
    (within : cursor ≤ stop) :
    SweepEnds chain before resume stop
      (stores.recordSpendFrontier (cursor - 1)).saveState.interrupted
      (stores.recordSpendFrontier (cursor - 1)).saveState := by
  have whole : cursor - 1 + 1 = cursor := by omega
  obtain ⟨reached, here, shape⟩ :=
    underway.raised.advance (cursor - 1)
  have there : reached = cursor - 1 := by omega
  refine ⟨marks, cursor - 1, ?_, ?_, by omega, rfl⟩
  · rw [whole]
    exact underway.swept.checkpoint (cursor - 1)
  · rw [ScanStores.lastSpendHeight_checkpoint, shape, there]

theorem visit
    (times : Nat → Option Nat)
    (exact_ : script.Exact chain)
    (underway :
      Underway chain before resume stop cursor watch marks coins stores)
    (low : resume ≤ cursor)
    (high : cursor ≤ stop)
    {request : Nat}
    {blockHash : BlockHash}
    {spent : BTreeSet OutPoint}
    (answer :
      script.next request cursor watch.outpoints = .ok (blockHash, spent)) :
    ∃ marks coins,
      Underway chain before resume stop (cursor + 1)
        (spent.toList.foldl WatchableSet.remove watch) marks coins
        (stores.withSpent times blockHash cursor spent) := by
  obtain ⟨rfl, exactly⟩ := exact_ _ _ _ _ _ answer
  -- The watched outpoints are the open coins that no call has named.
  have watched :
      ∀ outpoint,
        outpoint ∈ watch.outpoints ↔
          before.coins.Watched outpoint ∧ ¬ MarkedBy marks outpoint := by
    intro outpoint
    rw [underway.tallied.outpoints, List.mem_map]
    constructor
    · rintro ⟨⟨name, height⟩, listed, rfl⟩
      obtain ⟨known, unmarked⟩ := (underway.opens _).mp listed
      obtain ⟨entry, stored, open_, _⟩ := mem_watchable.mp known
      exact ⟨⟨entry, stored, open_⟩, unmarked⟩
    · rintro ⟨⟨entry, stored, open_⟩, unmarked⟩
      exact ⟨(outpoint, _),
        (underway.opens _).mpr
          ⟨mem_watchable.mpr ⟨entry, stored, open_, rfl⟩, unmarked⟩, rfl⟩
  have recorded :=
    underway.swept.record low high
      (fun outpoint named => by
        obtain ⟨member, spends⟩ := (exactly outpoint).mp named
        obtain ⟨open_, unmarked⟩ := (watched outpoint).mp member
        exact ⟨open_, unmarked, spends⟩)
      (fun outpoint open_ spends => by
        by_cases marked : MarkedBy marks outpoint
        · exact Or.inr marked
        · exact Or.inl ((exactly outpoint).mpr
            ⟨(watched outpoint).mpr ⟨open_, marked⟩, spends⟩))
      (get_coins_withSpent times (chain.hash cursor) cursor spent stores)
  obtain ⟨rest, tallied, members⟩ :=
    underway.tallied.removeAll spent.toList
  have same :
      (stores.withSpent times (chain.hash cursor) cursor spent).state =
        stores.state := by
    unfold ScanStores.withSpent
    split
    · rfl
    · simp
  refine ⟨_, rest, recorded, tallied, ?_, ?_, Or.inl (by omega)⟩
  · intro coin
    rw [members, underway.opens, Std.ExtTreeSet.mem_toList]
    constructor
    · rintro ⟨⟨known, unmarked⟩, unspent⟩
      refine ⟨known, ?_⟩
      rintro ⟨mark, listed, named⟩
      rcases List.mem_append.mp listed with earlier | last
      · exact unmarked ⟨mark, earlier, named⟩
      · rw [List.mem_singleton.mp last] at named
        exact unspent named
    · rintro ⟨known, unmarked⟩
      refine ⟨⟨known, ?_⟩, ?_⟩
      · rintro ⟨mark, listed, named⟩
        exact unmarked ⟨mark, List.mem_append_left _ listed, named⟩
      · intro named
        exact unmarked
          ⟨_, List.mem_append_right _ List.mem_cons_self, named⟩
  · rw [same]
    rcases underway.raised with same | ⟨height, below, shape⟩
    · exact Or.inl same
    · exact Or.inr ⟨height, by omega, shape⟩

end Underway

theorem checkpointSpendIf_underway
    (due : Bool)
    {cursor height : Nat}
    (below : height < cursor)
    {watch : WatchableSet}
    {coins : List (OutPoint × Nat)} :
    Holds (Underway chain before resume stop cursor watch marks coins)
      (checkpointSpendIf due height)
      (fun _ => Underway chain before resume stop cursor watch marks coins)
      (fun _ _ => True) :=
  Holds.ite (fun _ _ underway => underway.checkpoint below)
    (fun _ => Holds.pure (fun _ underway => underway))

theorem runSweep_exact
    (exact_ : script.Exact chain)
    (fuel : Nat)
    {request cursor : Nat}
    {watch : WatchableSet}
    {coins : List (OutPoint × Nat)}
    (low : resume ≤ cursor)
    (enough : stop < cursor + fuel) :
    Holds (Underway chain before resume stop cursor watch marks coins)
      (runSweep times script stop fuel request watch cursor)
      (SweepEnds chain before resume stop)
      (fun _ _ => True) := by
  induction fuel generalizing request cursor watch marks coins with
  | zero =>
      intro stores underway
      exact underway.ends enough
  | succ fuel inductionHypothesis =>
      rw [runSweep]
      refine Holds.ite (fun high => ?_) (fun beyond => ?_)
      · refine Holds.ite (fun _ => ?_) (fun _ => ?_)
        · refine Holds.ite (fun _ => Holds.throw ?_) (fun positive => ?_)
          · exact fun _ _ => True.intro
          · intro stores underway
            exact underway.ends_interrupted positive high
        · cases answer : script.next request cursor watch.outpoints with
          | error reason =>
              exact Holds.throw (fun _ _ => True.intro)
          | ok found =>
              obtain ⟨blockHash, spent⟩ := found
              intro stores underway
              obtain ⟨marks, coins, visited⟩ :=
                underway.visit times exact_ low high answer
              dsimp only
              rw [bind_apply_ok (recordSpent_eq ..)]
              -- From the block on: a checkpoint, then the floor.
              refine Holds.move
                (checkpointSpendIf_underway _ (Nat.lt_succ_self cursor))
                (fun _ _ failed => failed) (fun _ => ?_) _ visited
              cases lowest :
                  (spent.toList.foldl WatchableSet.remove watch).floor with
              | none =>
                  intro stores underway
                  exact underway.ends_idle lowest (by omega)
              | some floor =>
                  refine Holds.ite (fun above => ?_) (fun _ =>
                    inductionHypothesis (by omega) (by omega))
                  refine Holds.move
                    (fun _ underway => underway.jump lowest above)
                    (fun _ _ failed => failed)
                    (fun _ => inductionHypothesis (by omega) (by omega))
      · intro stores underway
        exact underway.ends (by omega)

theorem sweepEnds_unvisited
    (missed :
      ∀ outpoint height, (outpoint, height) ∈ before.coins.watchable resume →
        stop < max resume height) :
    SweepEnds chain before resume stop .completed
      (before.recordSpendFrontier stop).saveState := by
  have begun :
      Swept chain before.coins resume stop (min resume (stop + 1)) []
        before.coins :=
    Swept.begun (Nat.min_le_left _ _)
  have first :
      RaisedBelow 0 before.state.lastSpendHeight
        before.state.lastSpendHeight :=
    Or.inl rfl
  obtain ⟨reached, here, shape⟩ := first.advance stop
  have there : reached = stop := by omega
  refine ⟨[], stop, ?_, ?_, Or.inl rfl⟩
  · refine (begun.raise (Nat.min_le_right _ _) ?_).checkpoint stop
    intro outpoint height watched spentAt _ old low below
    have beyond := missed outpoint height watched
    omega
  · rw [ScanStores.lastSpendHeight_checkpoint, shape, there]

theorem processSpends_sweepEnds
    {scan : ScanScript}
    (exact_ : scan.sweep.Exact chain)
    (start : Nat) :
    Holds (fun stores => stores = before)
      (processSpends scan start stop)
      (SweepEnds chain before (before.effectiveSpendStart start) stop)
      (fun _ _ => True) := by
  refine Holds.bindRead (fun stores same => ?_)
  subst same
  dsimp only
  obtain ⟨coins, tallied, members⟩ :=
    WatchableSet.Tallied.new
      (distinct_watchable stores.coins (stores.effectiveSpendStart start))
  cases lowest :
      (WatchableSet.new
        (stores.coins.watchable (stores.effectiveSpendStart start))).floor with
  | none =>
      rintro _ rfl
      refine sweepEnds_unvisited (fun outpoint height watched => ?_)
      have listed := (members _).mpr watched
      rw [tallied.floor_none lowest] at listed
      cases listed
  | some floor =>
      have old :
          ∀ outpoint height,
            (outpoint, height) ∈
                stores.coins.watchable (stores.effectiveSpendStart start) →
              floor ≤ height := fun outpoint height watched =>
        tallied.floor_le lowest ((members _).mpr watched)
      refine Holds.ite (fun beyond => ?_) (fun within => ?_)
      · rintro _ rfl
        refine sweepEnds_unvisited (fun outpoint height watched => ?_)
        have bound := old outpoint height watched
        omega
      · intro state same
        rw [same]
        have begun :
            Underway chain stores (stores.effectiveSpendStart start) stop
              (max (stores.effectiveSpendStart start) floor)
              (WatchableSet.new
                (stores.coins.watchable (stores.effectiveSpendStart start)))
              [] coins stores := by
          refine ⟨?_, tallied, ?_, Or.inl rfl, Or.inl (by omega)⟩
          · refine (Swept.begun (Nat.le_refl _)).raise
              (Nat.le_max_left _ _) ?_
            intro outpoint height watched spentAt _ young low below
            have bound := old outpoint height watched
            omega
          · intro coin
            rw [members]
            refine ⟨fun watched => ⟨watched, ?_⟩, And.left⟩
            rintro ⟨_, impossible, _⟩
            cases impossible
        exact runSweep_exact exact_ _ (Nat.le_max_left _ _) (by omega) _ begun

end

/--
A sweep that ends marks the watchable coins that the chain spends in its range,
each in one call and with the hash of that block, and changes no other coin;
none that could be spent at or below the height it reached is missed, and that
height is what it raises the spend frontier to.
-/
theorem processSpends_marks_exactly
    {chain : SpendChain}
    {scan : ScanScript}
    (exact_ : scan.sweep.Exact chain)
    {start stop : Nat}
    {before after : ScanStores}
    {outcome : SpScanOutcome}
    (ended : processSpends scan start stop before = .ok outcome after) :
    SweepEnds chain before (before.effectiveSpendStart start) stop outcome
      after := by
  have sweeps :
      Holds (fun stores => stores = before) (processSpends scan start stop)
        (SweepEnds chain before (before.effectiveSpendStart start) stop)
        (fun _ _ => True) :=
    processSpends_sweepEnds exact_ start
  have holds := sweeps before rfl
  rw [ended] at holds
  exact holds

namespace SweepSample

theorem mem_filter
    (watch : BTreeSet OutPoint)
    (picks : OutPoint → Bool)
    (outpoint : OutPoint) :
    outpoint ∈ watch.filter picks ↔
      outpoint ∈ watch ∧ picks outpoint = true := by
  rw [← Std.ExtTreeSet.mem_toList, Std.ExtTreeSet.toList_filter,
    List.mem_filter, Std.ExtTreeSet.mem_toList]

/-- Two coins, recorded at heights 3 and 10, and a sweep up to 8. -/
def wallet : ScanStores where
  coins :=
    ((SpCoinStore.withBackend ⟨∅, []⟩).insert ⟨1, 0⟩
        ⟨some 3, 1, 50, 7, none, .unspent⟩).insert
      ⟨2, 0⟩ ⟨some 10, 1, 50, 7, none, .unspent⟩
  txs := SpTxStore.withBackend ⟨∅, []⟩
  state :=
    (ScanState.withBackend 3 ⟨∅, []⟩
      ⟨none, none, none, []⟩).advanceSpendFrontier 8

/-- The spends of a chain: one coin in block 4, the other in block 5. -/
def picks (height : Nat) (outpoint : OutPoint) : Bool :=
  height = 4 ∧ outpoint = ⟨2, 0⟩ ∨ height = 5 ∧ outpoint = ⟨1, 0⟩

def chain : SpendChain where
  hash := ScanRun.sampleHash
  spends height outpoint := picks height outpoint = true

/-- A scan that gets every answer of the sweep from that chain. -/
def scan : ScanScript where
  times _ := none
  chainHash _ height := .ok (ScanRun.sampleHash height)
  arrivals := []
  stopAtEnd := false
  sweep :=
    { next := fun _ cursor watch =>
        .ok (ScanRun.sampleHash cursor, watch.filter (picks cursor))
      watched := by
        intro _ _ _ _ _ answer outpoint listed
        cases answer
        exact ((mem_filter ..).mp listed).1
      checkpoint := fun _ => false
      stop := fun _ => false }

theorem scan_exact : scan.sweep.Exact chain := by
  intro _ _ _ _ _ answer
  cases answer
  exact ⟨rfl, mem_filter _ _⟩

/-- The sweep from 3 to 6. -/
def swept : ScanStores :=
  finalState (processSpends scan 3 6 wallet)

theorem wallet_swept :
    processSpends scan 3 6 wallet = .ok .completed swept := by
  have completes :
      (match processSpends scan 3 6 wallet with
      | .ok outcome _ => decide (outcome = .completed)
      | .error _ _ => false) = true := by
    decide +kernel
  unfold swept
  cases run : processSpends scan 3 6 wallet with
  | error reason after =>
      rw [run] at completes
      cases completes
  | ok outcome after =>
      rw [run] at completes
      rw [decide_eq_true_eq.mp completes]
      rfl

/-- A sweep below the spend frontier leaves it where it stands, and marks a
coin recorded above the block that spends it. -/
theorem lower_sweep_departs :
    (¬ ∀ (chain : SpendChain) (scan : ScanScript) (start stop : Nat)
        (before after : ScanStores),
        scan.sweep.Exact chain →
        processSpends scan start stop before = .ok .completed after →
        after.state.lastSpendHeight = some stop) ∧
      ¬ ∀ (chain : SpendChain) (scan : ScanScript) (start stop : Nat)
        (before after : ScanStores),
        scan.sweep.Exact chain →
        processSpends scan start stop before = .ok .completed after →
        ∀ outpoint entry, before.coins.get outpoint = some entry →
          after.coins.get outpoint ≠ some entry →
          ∃ spentAt, chain.spends spentAt outpoint ∧
            entry.height.getD (before.effectiveSpendStart start) ≤
              spentAt := by
  constructor
  · intro always
    have ends := always chain scan 3 6 wallet swept scan_exact wallet_swept
    have stays : swept.state.lastSpendHeight = some 8 := by decide +kernel
    rw [stays] at ends
    cases ends
  · intro always
    have stored :
        wallet.coins.get ⟨2, 0⟩ =
          some ⟨⟨2, 0⟩, ⟨some 10, 1, 50, 7, none, .unspent⟩⟩ := by
      decide +kernel
    obtain ⟨spentAt, spends, old⟩ :=
      always chain scan 3 6 wallet swept scan_exact wallet_swept ⟨2, 0⟩ _
        stored (by decide +kernel)
    have high : 10 ≤ spentAt := old
    have low : spentAt = 4 ∨ spentAt = 5 := by
      rcases of_decide_eq_true spends with ⟨here, _⟩ | ⟨here, _⟩
      · exact Or.inl here
      · exact Or.inr here
    omega

theorem processSpends_marks_both :
    SweepEnds chain wallet (wallet.effectiveSpendStart 3) 6 .completed swept :=
  processSpends_marks_exactly scan_exact wallet_swept

end SweepSample

end Bwk
