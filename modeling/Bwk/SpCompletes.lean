import Bwk.HeaderValidator
import Bwk.SpConverge
import Bwk.SpSweepExact

namespace Bwk

/-!
# Where a scan may start

`fetch_blocks` asks for no block below height 1, while the collector waits for
every height from the start on: a scan that starts at 0 waits for a block that
nobody fetches.  From any other start a scan that gets its answers completes.
-/

/-- The three ways a scan is started. -/
inductive ScanEntry where
  | scanOneshot
  | startContinuousScan
  | scanBlocks
  deriving Repr, DecidableEq

def minBirthdayHeight : Network → Nat
  | .bitcoin => 709632
  | _ => 1

/-- The start an entry point passes on, from its override if there is one. -/
def ScanEntry.startHeight
    (entry : ScanEntry)
    (network : Network)
    (start : Option Nat)
    (state : ScanState) : Nat :=
  match entry with
  | .scanOneshot =>
      max (start.getD state.nextScanStart) (minBirthdayHeight network)
  | .startContinuousScan =>
      (start.map (fun height => max height (minBirthdayHeight network))).getD
        state.nextScanStart
  | .scanBlocks => start.getD state.nextScanStart

/-- The heights whose blocks are fetched; height 0 has none. -/
def fetchBlocks (start stop : Nat) : List Nat :=
  List.range' (max start 1) (stop + 1 - max start 1)

/-- Where a scan starts once a reorg has been handled. -/
def ScanScript.reorgedStart
    (script : ScanScript)
    (stores : ScanStores)
    (start : Nat) : Nat :=
  match findFork script.chainHash stores.state.scanned with
  | .ok (some forkHeight) => min start (forkHeight + 1)
  | _ => start

/--
Every block request for the heights from 1 to `stop` is answered and nothing
interrupts the scan: the fetched blocks arrive once each, in any order.
-/
structure ScanScript.Answers
    (script : ScanScript)
    (start stop : Nat) : Prop where
  fetched :
    (script.arrivals.map (fun arrival =>
      arrival.outcome.map BlockOutcome.height)).Perm
        ((fetchBlocks start stop).map Except.ok)
  swept :
    ∀ request cursor watch, 1 ≤ cursor → cursor ≤ stop →
      ∃ found, script.sweep.next request cursor watch = .ok found
  calm : ∀ arrival ∈ script.arrivals, arrival.stop = false
  calmAtEnd : script.stopAtEnd = false
  calmSweep : ∀ request, script.sweep.stop request = false

/--
The fork search ends at a kept hash: nothing is kept, or going down from the
newest one every answer comes, until one is the hash kept at its height.
-/
def ForkFound
    (chainHash : Nat → Nat → Except ScanError BlockHash)
    (scanned : BTreeMap Nat BlockHash) : Prop :=
  scanned.isEmpty = true ∨
    ∃ newer kept older,
      scanned.toList.reverse = newer ++ kept :: older ∧
        (∀ depth (_ : depth < newer.length),
          ∃ hash, chainHash depth newer[depth].1 = .ok hash) ∧
        chainHash newer.length kept.1 = .ok kept.2

def Completes
    (script : ScanScript)
    (start stop : Nat)
    (stores : ScanStores) : Prop :=
  ∃ after, processScan script start stop stores = .ok .completed after ∧
    (∃ scanned, after.state.lastScannedHeight = some scanned ∧
      stop ≤ scanned) ∧
    ∃ swept, after.state.lastSpendHeight = some swept ∧ stop ≤ swept

variable {chainHash : Nat → Nat → Except ScanError BlockHash}
variable {script : ScanScript} {start stop : Nat}

theorem searchFork_returns_iff
    (depth : Nat)
    (list : List (Nat × BlockHash)) :
    (∃ fork, searchFork chainHash depth list = .ok fork) ↔
      ∃ newer kept older,
        list = newer ++ kept :: older ∧
          (∀ index (_ : index < newer.length),
            ∃ hash, chainHash (depth + index) newer[index].1 = .ok hash) ∧
          chainHash (depth + newer.length) kept.1 = .ok kept.2 := by
  induction list generalizing depth with
  | nil =>
      simp [searchFork]
  | cons first below inductionHypothesis =>
      obtain ⟨height, hash⟩ := first
      cases answer : chainHash depth height with
      | error reason =>
          rw [searchFork, answer]
          constructor
          · rintro ⟨_, impossible⟩
            cases impossible
          · rintro ⟨newer, kept, older, shape, answers, matches_⟩
            cases newer with
            | nil =>
                cases shape
                rw [List.length_nil, Nat.add_zero, answer] at matches_
                cases matches_
            | cons top newer =>
                cases shape
                obtain ⟨_, impossible⟩ := answers 0 (Nat.zero_lt_succ _)
                rw [Nat.add_zero, List.getElem_cons_zero, answer] at impossible
                cases impossible
      | ok chain =>
          rw [searchFork, answer]
          dsimp only
          by_cases same : chain = hash
          · rw [if_pos same]
            refine ⟨fun _ => ⟨[], _, below, rfl, ?_, ?_⟩, fun _ => ⟨_, rfl⟩⟩
            · intro _ impossible
              cases impossible
            · rw [List.length_nil, Nat.add_zero, answer, same]
          · rw [if_neg same, inductionHypothesis]
            constructor
            · rintro ⟨newer, kept, older, rfl, answers, matches_⟩
              refine ⟨(height, hash) :: newer, kept, older, rfl, ?_, ?_⟩
              · intro index within
                cases index with
                | zero =>
                    exact ⟨chain, answer⟩
                | succ index =>
                    rw [List.getElem_cons_succ]
                    rw [show depth + (index + 1) = depth + 1 + index by omega]
                    exact answers index (Nat.lt_of_succ_lt_succ within)
              · rw [List.length_cons,
                  show depth + (newer.length + 1) =
                    depth + 1 + newer.length by omega]
                exact matches_
            · rintro ⟨newer, kept, older, shape, answers, matches_⟩
              cases newer with
              | nil =>
                  cases shape
                  rw [List.length_nil, Nat.add_zero, answer] at matches_
                  cases matches_
                  exact absurd rfl same
              | cons top newer =>
                  cases shape
                  refine ⟨newer, kept, older, rfl, ?_, ?_⟩
                  · intro index within
                    have answered :=
                      answers (index + 1) (Nat.succ_lt_succ within)
                    rw [List.getElem_cons_succ,
                      show depth + (index + 1) = depth + 1 + index by
                        omega] at answered
                    exact answered
                  · rw [List.length_cons,
                      show depth + (newer.length + 1) =
                        depth + 1 + newer.length by omega] at matches_
                    exact matches_

theorem findFork_returns_iff
    {scanned : BTreeMap Nat BlockHash} :
    (∃ fork, findFork chainHash scanned = .ok fork) ↔
      ForkFound chainHash scanned := by
  unfold findFork ForkFound
  by_cases empty : scanned.isEmpty = true
  · rw [if_pos empty]
    exact ⟨fun _ => Or.inl empty, fun _ => ⟨none, rfl⟩⟩
  · rw [if_neg empty, searchFork_returns_iff]
    simp [empty]

theorem handleReorg_cases
    (script : ScanScript)
    (start : Nat)
    (stores : ScanStores) :
    (∃ after, handleReorg script start stores =
        .ok (script.reorgedStart stores start) after ∧
          ∃ fork, findFork script.chainHash stores.state.scanned =
            .ok fork) ∨
      ∃ reason, handleReorg script start stores = .error reason stores ∧
        findFork script.chainHash stores.state.scanned = .error reason := by
  rw [handleReorg, get_bind_apply, ScanScript.reorgedStart]
  cases found : findFork script.chainHash stores.state.scanned with
  | error reason =>
      exact Or.inr ⟨reason, rfl, rfl⟩
  | ok fork =>
      cases fork with
      | none =>
          exact Or.inl ⟨stores, rfl, none, rfl⟩
      | some forkHeight =>
          exact Or.inl ⟨_, rfl, some forkHeight, rfl⟩

theorem processBlocks_delivered
    (script : ScanScript)
    (start stop : Nat) :
    Holds (fun _ => True) (processBlocks script start stop)
      (fun outcome _ =>
        outcome = .completed →
          ∀ height, start ≤ height → height ≤ stop →
            ∃ hash, Delivered script.arrivals height hash)
      (fun _ _ => True) := by
  refine processBlocks_completed script start stop
    (fun collector sound reached _ height low high => ?_)
  obtain ⟨_, _, filled⟩ := sound.tip stop reached
  obtain ⟨hash, found⟩ :=
    BTreeMap.mem_iff_getElem?.mp (filled height low high)
  exact ⟨hash, sound.delivered height hash found⟩

theorem ScanScript.Answers.arrives_iff
    (answers : script.Answers start stop)
    (height : Nat) :
    (∃ arrival ∈ script.arrivals, ∃ block,
        arrival.outcome = .ok block ∧ block.height = height) ↔
      max start 1 ≤ height ∧ height ≤ stop := by
  have same := answers.fetched.mem_iff (a := Except.ok height)
  rw [List.mem_map, List.mem_map] at same
  have fetches :
      height ∈ fetchBlocks start stop ↔
        max start 1 ≤ height ∧ height ≤ stop := by
    rw [fetchBlocks, List.mem_range'_1]
    omega
  rw [← fetches]
  constructor
  · rintro ⟨arrival, listed, block, outcome, rfl⟩
    obtain ⟨other, fetched, equal⟩ :=
      same.mp ⟨arrival, listed, by rw [outcome]; rfl⟩
    cases equal
    exact fetched
  · intro fetched
    obtain ⟨arrival, listed, shape⟩ := same.mpr ⟨height, fetched, rfl⟩
    cases outcome : arrival.outcome with
    | error reason =>
        rw [outcome] at shape
        cases shape
    | ok block =>
        rw [outcome] at shape
        exact ⟨arrival, listed, block, outcome, Except.ok.inj shape⟩

theorem ScanScript.Answers.receivesAll
    (answers : script.Answers start stop)
    (positive : 1 ≤ start) :
    ReceivesAll start stop script.arrivals where
  calm := by
    rintro ⟨arrival, listed, stops | outside⟩
    · rw [answers.calm arrival listed] at stops
      cases stops
    · have member :
          arrival.outcome.map BlockOutcome.height ∈
            (fetchBlocks start stop).map (Except.ok (ε := ScanError)) :=
        answers.fetched.mem_iff.mp (List.mem_map_of_mem listed)
      obtain ⟨height, _, shape⟩ := List.mem_map.mp member
      cases outcome : arrival.outcome with
      | error reason =>
          rw [outcome] at shape
          cases shape
      | ok block =>
          have within :=
            (answers.arrives_iff block.height).mp
              ⟨arrival, listed, block, outcome, rfl⟩
          have beyond := outside block outcome
          omega
  complete height low high :=
    (answers.arrives_iff height).mpr ⟨by omega, high⟩

/-- The spend frontier has reached a height. -/
def ScanState.SweptPast (state : ScanState) (height : Nat) : Prop :=
  ∃ swept, state.lastSpendHeight = some swept ∧ height ≤ swept

theorem sweptPast_checkpoint
    (height : Nat)
    (stores : ScanStores) :
    (stores.recordSpendFrontier height).saveState.state.SweptPast height := by
  unfold ScanState.SweptPast
  rw [ScanStores.lastSpendHeight_checkpoint]
  cases reached : stores.state.lastSpendHeight with
  | none =>
      exact ⟨height, by simp [ScanState.advanceSpendFrontier, reached],
        Nat.le_refl _⟩
  | some frontier =>
      exact ⟨_, stores.state.lastSpendHeight_advanceSpendFrontier height
        reached, Nat.le_max_right _ _⟩

theorem checkpointSpend_completes :
    Holds (fun _ => True)
      (do
        checkpointSpend stop
        pure .completed : ScanM SpScanOutcome)
      (fun outcome stores =>
        outcome = .completed ∧ stores.state.SweptPast stop)
      (fun _ _ => False) :=
  fun stores _ => ⟨rfl, sweptPast_checkpoint stop stores⟩

theorem runSweep_completes
    (answers : script.Answers start stop)
    (fuel : Nat)
    {request cursor : Nat}
    {watch : WatchableSet}
    (positive : 1 ≤ cursor) :
    Holds (fun _ => True)
      (runSweep script.times script.sweep stop fuel request watch cursor)
      (fun outcome stores =>
        outcome = .completed ∧ stores.state.SweptPast stop)
      (fun _ _ => False) := by
  have anywhere :
      ∀ height, Holds (fun _ => True) (checkpointSpend height)
        (fun _ _ => True) (fun _ _ => False) :=
    fun _ _ _ => True.intro
  induction fuel generalizing request cursor watch with
  | zero =>
      exact checkpointSpend_completes
  | succ fuel inductionHypothesis =>
      rw [runSweep]
      refine Holds.ite (fun within => ?_)
        (fun _ => checkpointSpend_completes)
      rw [answers.calmSweep request]
      obtain ⟨⟨blockHash, spent⟩, found⟩ :=
        answers.swept request cursor watch.outpoints positive within
      rw [found]
      refine Holds.through (fun _ _ => True) ?_ (fun _ => ?_)
      · intro stores _
        rw [recordSpent_eq]
        exact True.intro
      · refine Holds.through (fun _ _ => True)
          (Holds.ite (fun _ => anywhere _) (fun _ => Holds.pure
            (fun _ _ => True.intro))) (fun _ => ?_)
        cases (spent.toList.foldl WatchableSet.remove watch).floor with
        | none =>
            exact checkpointSpend_completes
        | some floor =>
            refine Holds.ite (fun above => ?_) (fun _ =>
              inductionHypothesis (by omega))
            exact Holds.bind (anywhere _) (fun _ =>
              inductionHypothesis (by omega))

theorem processSpends_past
    (script : ScanScript)
    (start stop height : Nat) :
    Keeps (fun stores => stores.state.receiveSide.Past height)
      (processSpends script start stop) := by
  have rules :
      ScanRules { script with arrivals := [] } start stop 0
        (fun stores => stores.state.receiveSide.Past height) :=
    { resumes := fun _ _ => Nat.zero_le _
      outputs := by
        intro _ _ _ impossible
        cases impossible
      frontier := fun _ _ sound => sound.not_of_nil.elim
      inputs := by
        intro stores _ cursor _ blockHash spent _ _ _ _ past
        rwa [ScanStores.state_recordInputs]
      spendFrontier := by
        intro stores height past
        rwa [ScanStores.recordSpendFrontier, ScanState.receiveSide_persist,
          ScanState.receiveSide_advanceSpendFrontier]
      save := by
        intro stores past
        rwa [ScanStores.saveState, ScanState.receiveSide_persist] }
  exact rules.processSpends_keeps

theorem processSpends_completes
    (answers : script.Answers start stop)
    (positive : 1 ≤ start) :
    Holds (fun _ => True) (processSpends script start stop)
      (fun outcome stores =>
        outcome = .completed ∧ stores.state.SweptPast stop)
      (fun _ _ => False) := by
  refine Holds.bindGet (fun stores _ => ?_)
  have resumes : 1 ≤ stores.effectiveSpendStart start := by
    unfold ScanStores.effectiveSpendStart
    cases stores.state.lastSpendHeight with
    | none =>
        exact positive
    | some frontier =>
        dsimp only
        split <;> omega
  dsimp only
  cases (WatchableSet.new
      (stores.coins.watchable (stores.effectiveSpendStart start))).floor with
  | none =>
      exact checkpointSpend_completes
  | some floor =>
      refine Holds.ite (fun _ => checkpointSpend_completes) (fun _ => ?_)
      exact runSweep_completes answers _ (by omega)

theorem scanPasses_completes
    (answers : script.Answers start stop)
    (positive : 1 ≤ start)
    (range : start ≤ stop) :
    Holds (fun _ => True) (scanPasses script start stop)
      (fun outcome stores =>
        outcome = .completed ∧ stores.state.receiveSide.Past stop ∧
          stores.state.SweptPast stop)
      (fun _ _ => False) := by
  refine Holds.bindGet (fun stores _ => ?_)
  rw [if_neg (by omega), if_pos range]
  refine Holds.through
    (fun outcome stores =>
      outcome = .completed ∧ stores.state.receiveSide.Past stop) ?_ ?_
  · have completes :=
      processBlocks_completes range (answers.receivesAll positive)
    refine Holds.conseq
      (Holds.and completes
        (Holds.conseq (processBlocks_past script start stop)
          (fun _ _ => True.intro) (fun _ _ past => past)
          (fun _ _ holds => holds)))
      (fun _ _ => ⟨True.intro, True.intro⟩) ?_ ?_
    · rintro outcome stores ⟨completed, past⟩
      exact ⟨completed, past completed⟩
    · rintro _ _ ⟨impossible, _⟩
      exact impossible
  · intro outcome
    refine Holds.assume (fun _ holds => holds.1) (fun completed => ?_)
    subst completed
    refine Holds.conseq
      (Holds.and (processSpends_completes answers positive)
        (processSpends_past script start stop stop))
      (fun _ holds => ⟨True.intro, holds.2⟩) ?_ ?_
    · rintro outcome stores ⟨⟨completed, swept⟩, past⟩
      exact ⟨completed, past, swept⟩
    · rintro _ _ ⟨impossible, _⟩
      exact impossible

theorem scanPasses_from_zero
    {stop : Nat}
    (answers : script.Answers 0 stop) :
    Holds (fun _ => True) (scanPasses script 0 stop)
      (fun outcome _ => outcome ≠ .completed) (fun _ _ => True) := by
  refine Holds.bindGet (fun stores _ => ?_)
  rw [if_neg (by omega), if_pos (Nat.zero_le stop)]
  refine Holds.bind (processBlocks_delivered script 0 stop) ?_
  intro outcome
  refine Holds.assume (fun _ holds => holds) (fun delivered => ?_)
  cases outcome with
  | completed =>
      obtain ⟨_, arrival, listed, block, outcome, height, _⟩ :=
        delivered rfl 0 (Nat.le_refl 0) (Nat.zero_le stop)
      have fetched :=
        (answers.arrives_iff 0).mp ⟨arrival, listed, block, outcome, height⟩
      omega
  | interrupted lastScanned lastSpend =>
      exact Holds.pure (fun _ _ impossible => by cases impossible)

theorem startSpendFrontier_ok
    (start : Nat)
    (stores : ScanStores) :
    ∃ after, startSpendFrontier start stores = .ok () after := by
  rcases startSpendFrontier_cases start stores with ⟨stays, _⟩ | ⟨_, _, moves⟩
  · exact ⟨_, stays⟩
  · exact ⟨_, moves⟩

theorem processScan_eq
    (start stop : Nat)
    {stores : ScanStores}
    (found :
      ∃ fork, findFork script.chainHash stores.state.scanned = .ok fork) :
    ∃ before,
      processScan script start stop stores =
        scanPasses script (script.reorgedStart stores start) stop before := by
  rcases handleReorg_cases script start stores with
    ⟨after, handled, _⟩ | ⟨reason, _, failed⟩
  · obtain ⟨before, started⟩ :=
      startSpendFrontier_ok (script.reorgedStart stores start)
        { after with
          txs := after.txs.restampMissingTimestamps script.times }
    refine ⟨before, ?_⟩
    rw [processScan, bind_apply_ok handled]
    exact bind_apply_ok started
  · obtain ⟨fork, returned⟩ := found
    rw [failed] at returned
    cases returned

/--
A scan whose requests are all answered completes, past its end with both
frontiers, exactly when it does not start at height 0 and its fork search ends
at a kept hash.
-/
theorem processScan_completes_iff
    {script : ScanScript}
    {stores : ScanStores}
    {network : Network}
    {entry : ScanEntry}
    {override : Option Nat}
    {stop : Nat}
    (range : entry.startHeight network override stores.state ≤ stop)
    (answers :
      script.Answers
        (script.reorgedStart stores
          (entry.startHeight network override stores.state)) stop) :
    Completes script (entry.startHeight network override stores.state) stop
        stores ↔
      entry.startHeight network override stores.state ≠ 0 ∧
        ForkFound script.chainHash stores.state.scanned := by
  generalize entry.startHeight network override stores.state = start at *
  rw [← findFork_returns_iff]
  have lowered : script.reorgedStart stores start ≤ start := by
    unfold ScanScript.reorgedStart
    split
    · exact Nat.min_le_left _ _
    · exact Nat.le_refl _
  constructor
  · rintro ⟨after, completed, _⟩
    have found :
        ∃ fork,
          findFork script.chainHash stores.state.scanned = .ok fork := by
      rcases handleReorg_cases script start stores with
        ⟨_, _, found⟩ | ⟨reason, failed, _⟩
      · exact found
      · rw [processScan, bind_apply_error failed] at completed
        cases completed
    refine ⟨?_, found⟩
    rintro rfl
    obtain ⟨before, run⟩ := processScan_eq 0 stop found
    rw [Nat.le_zero.mp lowered] at run answers
    rw [run] at completed
    exact (scanPasses_from_zero answers).ok True.intro completed rfl
  · rintro ⟨positive, found⟩
    have above : 1 ≤ script.reorgedStart stores start := by
      unfold ScanScript.reorgedStart
      split <;> omega
    obtain ⟨before, run⟩ := processScan_eq start stop found
    have completes :=
      scanPasses_completes answers above (Nat.le_trans lowered range) before
        True.intro
    unfold Completes
    rw [run]
    cases outcome :
        scanPasses script (script.reorgedStart stores start) stop before with
    | error reason after =>
        rw [outcome] at completes
        exact completes.elim
    | ok value after =>
        rw [outcome] at completes
        obtain ⟨rfl, ⟨scanned, past, high⟩, swept⟩ := completes
        exact ⟨after, rfl, ⟨scanned, past, high⟩, swept⟩

namespace ScanRun

/-- A sweep that finds nothing. -/
def quietSweep : SweepScript where
  next _ cursor _ := .ok (sampleHash cursor, ∅)
  watched := by
    intro _ _ _ _ _ answer outpoint listed
    cases answer
    simp at listed
  checkpoint _ := false
  stop _ := false

/-- A script whose blocks arrive in some order and pay nothing. -/
def delivering (heights : List Nat) : ScanScript where
  times _ := none
  chainHash _ height := .ok (sampleHash height)
  arrivals :=
    heights.map (fun height =>
      ⟨.ok ⟨height, sampleHash height, ∅⟩, false, false⟩)
  stopAtEnd := false
  sweep := quietSweep

theorem delivering_answers
    {heights : List Nat}
    (fetched : heights.Perm (fetchBlocks start stop)) :
    (delivering heights).Answers start stop where
  fetched := by
    have shape :
        (delivering heights).arrivals.map (fun arrival =>
            arrival.outcome.map BlockOutcome.height) =
          heights.map Except.ok := by
      rw [delivering, List.map_map]
      rfl
    rw [shape]
    exact fetched.map _
  swept _ cursor _ _ _ := ⟨(sampleHash cursor, ∅), rfl⟩
  calm arrival listed := by
    obtain ⟨_, _, rfl⟩ := List.mem_map.mp listed
    rfl
  calmAtEnd := rfl
  calmSweep _ := rfl

/-- A custom range from 0 to 2 is not completed. -/
theorem zero_start_fails :
    ¬ ∀ (script : ScanScript) (stores : ScanStores) (network : Network)
        (entry : ScanEntry) (override : Option Nat) (stop : Nat),
        entry.startHeight network override stores.state ≤ stop →
        script.Answers
          (script.reorgedStart stores
            (entry.startHeight network override stores.state)) stop →
        Completes script (entry.startHeight network override stores.state)
          stop stores := by
  intro always
  obtain ⟨after, completed, _⟩ :=
    always (delivering [1, 2]) sampleWallet .regtest .scanBlocks (some 0) 2
      (by decide) (delivering_answers (List.Perm.refl _))
  have fails :
      (match processScan (delivering [1, 2]) 0 2 sampleWallet with
      | .ok _ _ => false
      | .error reason _ => decide (reason = .missingBlockHash 2)) = true := by
    decide +kernel
  have run :
      processScan (delivering [1, 2]) 0 2 sampleWallet =
        .ok .completed after :=
    completed
  rw [run] at fails
  cases fails

theorem processScan_completes_fresh :
    Completes (delivering [11, 10])
      (ScanEntry.scanOneshot.startHeight .regtest none sampleWallet.state) 11
      sampleWallet :=
  (processScan_completes_iff (by decide)
    (delivering_answers (List.Perm.swap 10 11 []))).mpr
      ⟨by decide, Or.inl rfl⟩

end ScanRun

end Bwk
