import Bwk.SpFrontier

namespace Bwk

/-!
# Which reorgs a resumed wallet recovers from

The kept hashes are those from the first scanned height, or from five below the
highest frontier the wallet ever had, up to the frontier.  A rollback does not
bring back what an earlier frontier dropped.
-/

/-- What a scan state says of the receive pass. -/
structure ReceiveSide where
  last : Option Nat
  kept : BTreeMap Nat BlockHash
  birthday : Nat

namespace ScanState

def receiveSide (state : ScanState) : ReceiveSide :=
  ⟨state.lastScannedHeight, state.scanned, state.birthdayHeight⟩

@[simp] theorem receiveSide_persist (state : ScanState) :
    state.persist.receiveSide = state.receiveSide := by
  simp [receiveSide]

@[simp] theorem receiveSide_advanceSpendFrontier
    (state : ScanState)
    (height : Nat) :
    (state.advanceSpendFrontier height).receiveSide = state.receiveSide := by
  unfold advanceSpendFrontier
  split <;> rfl

end ScanState

variable {input : ScanInput}

theorem ScanInput.unforkedScan_keepsState
    (inv : ScanState → Prop)
    (advance :
      ∀ (state : ScanState) tip hashes, input.start ≤ tip →
        tip ≤ input.stop →
        (∀ height, input.start ≤ height → height ≤ tip → height ∈ hashes) →
        inv state → inv (state.advanceTo hashes input.start tip).persist)
    (spend :
      ∀ (state : ScanState) height, inv state →
        inv (state.advanceSpendFrontier height).persist)
    (save : ∀ state : ScanState, inv state → inv state.persist) :
    Keeps (fun stores => inv stores.state) input.unforkedScan := by
  have receive :
      ReceiveRules input.script.times input.start input.stop
        (fun _ _ stores => inv stores.state) :=
    { commit := by
        intro _ _ stores block _ _ holds
        unfold ScanStores.withFound
        split
        · exact holds
        · exact holds
      frontier := fun _ collector stores tip _ low high filled holds =>
        advance stores.state tip collector.hashes low high filled holds
      save := fun _ _ stores holds => save stores.state holds }
  have sweep :
      ScanRules { input.script with arrivals := [] } input.start input.stop 0
        (fun stores => inv stores.state) :=
    { resumes := fun _ _ => Nat.zero_le _
      outputs := by
        intro _ _ _ impossible
        cases impossible
      frontier := fun _ _ sound => sound.not_of_nil.elim
      inputs := by
        intro stores _ _ _ _ _ _ _ _ _ holds
        simpa using holds
      spendFrontier := fun stores height holds =>
        spend stores.state height holds
      save := fun stores holds => save stores.state holds }
  have sweeps :
      Keeps (fun stores => inv stores.state)
        (processSpends input.script input.start input.stop) :=
    sweep.processSpends_keeps
  refine Keeps.bind (sweep.startSpendFrontier_keeps input.start) (fun _ => ?_)
  refine Holds.bindGet (fun _ _ => Holds.ite (fun _ => Keeps.throw)
    (fun _ => Holds.ite (fun _ => ?_) (fun _ => sweeps)))
  have received :
      Keeps (fun stores => inv stores.state)
        (processBlocks input.script input.start input.stop) :=
    Holds.conseq receive.processBlocks (fun _ holds => holds)
      (fun _ _ ⟨_, holds, _⟩ => holds) (fun _ _ ⟨_, holds, _⟩ => holds)
  refine Keeps.bind received ?_
  intro outcome
  cases outcome with
  | completed =>
      exact sweeps
  | interrupted lastScanned lastSpend =>
      exact Keeps.pure

theorem ScanInput.unforkedScan_keeps
    (inv : ReceiveSide → Prop)
    (advance :
      ∀ (state : ScanState) tip hashes, input.start ≤ tip →
        tip ≤ input.stop →
        (∀ height, input.start ≤ height → height ≤ tip → height ∈ hashes) →
        inv state.receiveSide →
        inv (state.advanceTo hashes input.start tip).receiveSide) :
    Keeps (fun stores => inv stores.state.receiveSide) input.unforkedScan := by
  refine ScanInput.unforkedScan_keepsState (fun state => inv state.receiveSide)
    ?_ ?_ ?_
  · intro state tip hashes low high filled holds
    rw [ScanState.receiveSide_persist]
    exact advance state tip hashes low high filled holds
  · intro state height holds
    rwa [ScanState.receiveSide_persist,
      ScanState.receiveSide_advanceSpendFrontier]
  · intro state holds
    rwa [ScanState.receiveSide_persist]

section AdvanceTo

variable
    {state : ScanState}
    {start tip : Nat}
    {hashes : BTreeMap Nat BlockHash}
    (low : start ≤ tip)
    (filled : ∀ height, start ≤ height → height ≤ tip → height ∈ hashes)

include low filled

theorem ScanState.lastScannedHeight_advanceTo
    (above : state.unscanned ≤ tip) :
    (state.advanceTo hashes start tip).lastScannedHeight = some tip := by
  rw [(ScanState.advanced_advanceTo state low filled).last, if_pos]
  · rfl
  · unfold reorgDepth
    omega

theorem ScanState.receiveSide_advanceTo
    (below : ¬ state.unscanned ≤ tip) :
    (state.advanceTo hashes start tip).receiveSide = state.receiveSide := by
  have advanced := ScanState.advanced_advanceTo state low filled
  have sameLast :
      (state.advanceTo hashes start tip).lastScannedHeight =
        state.lastScannedHeight := by
    rw [advanced.last, if_neg (by omega)]
  have sameHashes :
      (state.advanceTo hashes start tip).scanned = state.scanned := by
    apply Std.ExtTreeMap.ext_getElem?
    intro height
    rw [advanced.kept, if_neg (by omega), if_neg (by omega)]
  rw [ScanState.receiveSide, sameLast, sameHashes, advanced.birthday]
  rfl

theorem ScanState.mem_scanned_advanceTo
    (above : state.unscanned ≤ tip)
    (height : Nat) :
    height ∈ (state.advanceTo hashes start tip).scanned ↔
      (state.unscanned ≤ height ∧ start ≤ height ∧
        tip < height + reorgDepth ∧ height ≤ tip) ∨
        (height < state.unscanned ∨ tip < height ∨ height < start) ∧
          tip < height + reorgDepth ∧ height ∈ state.scanned := by
  have advanced := ScanState.advanced_advanceTo state low filled
  have nonempty : max start (tip + 1 - reorgDepth) < tip + 1 := by
    unfold reorgDepth
    omega
  rw [BTreeMap.mem_iff_getElem?, advanced.kept]
  by_cases fresh :
      state.unscanned ≤ height ∧
        max start (tip + 1 - reorgDepth) ≤ height ∧ height < tip + 1
  · rw [if_pos fresh, ← BTreeMap.mem_iff_getElem?]
    have present := filled height (by omega) (by omega)
    unfold reorgDepth at fresh ⊢
    exact ⟨fun _ => Or.inl (by omega), fun _ => present⟩
  · rw [if_neg fresh]
    by_cases dropped : height + reorgDepth < tip + 1
    · rw [if_pos ⟨nonempty, by omega, dropped⟩]
      constructor
      · rintro ⟨_, impossible⟩
        cases impossible
      · omega
    · rw [if_neg (fun all => dropped all.2.2), ← BTreeMap.mem_iff_getElem?]
      constructor
      · intro kept
        exact Or.inr ⟨by omega, by omega, kept⟩
      · rintro (new | ⟨_, _, kept⟩)
        · omega
        · exact kept

end AdvanceTo

/-- The kept hashes reach from the window below the highest frontier ever up
to the frontier. -/
structure Windowed
    (birthday peak : Nat)
    (side : ReceiveSide) : Prop where
  born : side.birthday = birthday
  unstarted : side.last = none → side.kept = ∅ ∧ peak = 0
  started :
    ∀ last, side.last = some last →
      birthday ≤ last ∧ last ≤ peak ∧ peak < last + reorgDepth
  window :
    ∀ last, side.last = some last → ∀ height,
      height ∈ side.kept ↔
        birthday ≤ height ∧ peak < height + reorgDepth ∧ height ≤ last

/-- The highest frontier, once a scan has moved it. -/
def peakAfter (peak : Nat) (side : ReceiveSide) : Nat :=
  max peak (side.last.getD 0)

variable {birthday peak : Nat} {state : ScanState}

theorem Windowed.advanceTo
    (windowed :
      Windowed birthday (peakAfter peak state.receiveSide) state.receiveSide)
    {start tip : Nat}
    {hashes : BTreeMap Nat BlockHash}
    (first : state.lastScannedHeight = none → start = birthday)
    (resumes :
      ∀ last, state.lastScannedHeight = some last → start ≤ last + 1)
    (low : start ≤ tip)
    (filled : ∀ height, start ≤ height → height ≤ tip → height ∈ hashes) :
    Windowed birthday
      (peakAfter peak (state.advanceTo hashes start tip).receiveSide)
      (state.advanceTo hashes start tip).receiveSide := by
  have advanced := ScanState.advanced_advanceTo state low filled
  by_cases above : state.unscanned ≤ tip
  · have reached := ScanState.lastScannedHeight_advanceTo low filled above
    have top :
        peakAfter peak (state.advanceTo hashes start tip).receiveSide =
          max peak tip := by
      rw [peakAfter, ScanState.receiveSide, reached]
      rfl
    have member := ScanState.mem_scanned_advanceTo low filled above
    rw [top]
    cases known : state.lastScannedHeight with
    | none =>
        have bound := ScanState.unscanned_none known
        obtain ⟨empty, zero⟩ := windowed.unstarted known
        have flat : peak = 0 := by
          rw [peakAfter] at zero
          omega
        have same := first known
        constructor
        · exact advanced.birthday.trans windowed.born
        · intro impossible
          cases reached.symm.trans impossible
        · intro last known'
          cases reached.symm.trans known'
          exact ⟨by omega, Nat.le_max_right _ _, by unfold reorgDepth; omega⟩
        · intro last known' height
          cases reached.symm.trans known'
          have gone : height ∉ state.scanned := by
            rw [show state.scanned = ∅ from empty]
            simp
          refine (member height).trans ?_
          constructor
          · rintro (new | ⟨_, _, kept⟩)
            · omega
            · exact absurd kept gone
          · intro inside
            exact Or.inl (by omega)
    | some before =>
        have bound := ScanState.unscanned_some known
        obtain ⟨start_, peak_, near⟩ := windowed.started before known
        have next := resumes before known
        have height_ :
            peakAfter peak state.receiveSide = max peak before := by
          rw [peakAfter, ScanState.receiveSide, known]
          rfl
        constructor
        · exact advanced.birthday.trans windowed.born
        · intro impossible
          cases reached.symm.trans impossible
        · intro last known'
          cases reached.symm.trans known'
          rw [height_] at near
          unfold reorgDepth at near ⊢
          exact ⟨by omega, Nat.le_max_right _ _, by omega⟩
        · intro last known' height
          cases reached.symm.trans known'
          have old := windowed.window before known height
          rw [height_] at old near
          refine (member height).trans ?_
          change _ ∨ _ ∧ _ ∧ height ∈ state.receiveSide.kept ↔ _
          rw [old]
          omega
  · rw [ScanState.receiveSide_advanceTo low filled above]
    exact windowed

theorem Windowed.peakAfter_eq
    {side : ReceiveSide}
    (windowed : Windowed birthday peak side) :
    peakAfter peak side = peak := by
  unfold peakAfter
  cases known : side.last with
  | none =>
      exact Nat.max_eq_left (Nat.zero_le _)
  | some last =>
      exact Nat.max_eq_left (windowed.started last known).2.1

def Resumes (birthday start : Nat) (side : ReceiveSide) : Prop :=
  (side.last = none → start = birthday) ∧
    ∀ last, side.last = some last → start ≤ last + 1

theorem Windowed.passes
    {stores : ScanStores}
    (windowed : Windowed birthday peak stores.state.receiveSide)
    (resumes : Resumes birthday input.start stores.state.receiveSide) :
    Windowed birthday
      (peakAfter peak
        (finalState (input.unforkedScan stores)).state.receiveSide)
      (finalState (input.unforkedScan stores)).state.receiveSide := by
  have keeps :
      Keeps
        (fun stores =>
          Windowed birthday (peakAfter peak stores.state.receiveSide)
              stores.state.receiveSide ∧
            Resumes birthday input.start stores.state.receiveSide)
        input.unforkedScan := by
    refine ScanInput.unforkedScan_keeps
      (fun side =>
        Windowed birthday (peakAfter peak side) side ∧
          Resumes birthday input.start side) ?_
    rintro state tip hashes low high filled ⟨windowed, first, next⟩
    refine ⟨windowed.advanceTo first next low filled, ?_⟩
    have moved := (ScanState.advanced_advanceTo state low filled).last
    have reached :
        (state.advanceTo hashes input.start tip).receiveSide.last =
            some tip ∨
          (state.advanceTo hashes input.start tip).receiveSide.last =
            state.receiveSide.last := by
      rw [ScanState.receiveSide, moved]
      split
      · exact Or.inl rfl
      · exact Or.inr rfl
    unfold Resumes
    rcases reached with there | stayed
    · rw [there]
      constructor
      · intro impossible
        cases impossible
      · intro last known
        cases known
        omega
    · rw [stayed]
      exact ⟨first, next⟩
  have begun :
      Windowed birthday (peakAfter peak stores.state.receiveSide)
        stores.state.receiveSide := by
    rw [windowed.peakAfter_eq]
    exact windowed
  exact (Holds.finalState keeps stores ⟨begun, resumes⟩).1

variable {chainHash : Nat → Nat → Except ScanError BlockHash}

theorem searchFork_hash
    {fork : Option Nat}
    (depth : Nat)
    (kept : List (Nat × BlockHash))
    (found : searchFork chainHash depth kept = .ok fork) :
    ∃ height hash,
      (height, hash) ∈ kept ∧
        (∃ request, chainHash request height = .ok hash) ∧
        (fork = some height ∨
          depth = 0 ∧ fork = none ∧
            kept.head? = some (height, hash)) := by
  induction kept generalizing depth with
  | nil =>
      cases found
  | cons newest below inductionHypothesis =>
      obtain ⟨height, hash⟩ := newest
      rw [searchFork] at found
      cases answer : chainHash depth height with
      | error reason =>
          rw [answer] at found
          cases found
      | ok chain =>
          rw [answer] at found
          dsimp only at found
          by_cases same : chain = hash
          · rw [if_pos same] at found
            rw [same] at answer
            refine ⟨height, hash, List.mem_cons_self, ⟨depth, answer⟩, ?_⟩
            by_cases deep : depth > 0
            · rw [if_pos deep] at found
              cases found
              exact Or.inl rfl
            · rw [if_neg deep] at found
              cases found
              exact Or.inr ⟨by omega, rfl, rfl⟩
          · rw [if_neg same] at found
            obtain ⟨height, hash, member, answered, which⟩ :=
              inductionHypothesis (depth + 1) found
            refine
              ⟨height, hash, List.mem_cons_of_mem _ member, answered, ?_⟩
            -- Below the frontier a match is a fork.
            rcases which with stopped | ⟨impossible, _⟩
            · exact Or.inl stopped
            · cases impossible

variable {forkHeight : Nat}

theorem searchFork_some
    {kept : List (Nat × BlockHash)}
    (found : searchFork chainHash 0 kept = .ok (some forkHeight)) :
    ∃ hash depth, (forkHeight, hash) ∈ kept ∧
      chainHash depth forkHeight = .ok hash := by
  obtain ⟨height, hash, listed, ⟨depth, answer⟩, same | ⟨_, impossible, _⟩⟩ :=
    searchFork_hash 0 kept found
  · cases same
    exact ⟨hash, depth, listed, answer⟩
  · cases impossible

variable {scanned : BTreeMap Nat BlockHash}

theorem mem_newestFirst
    {height : Nat} :
    height ∈ scanned.toList.reverse.map Prod.fst ↔ height ∈ scanned := by
  rw [List.map_reverse, List.mem_reverse,
    Std.ExtTreeMap.map_fst_toList_eq_keys, Std.ExtTreeMap.mem_keys]

theorem findFork_mem
    (found : findFork chainHash scanned = .ok (some forkHeight)) :
    forkHeight ∈ scanned := by
  unfold findFork at found
  split at found
  · cases found
  · obtain ⟨hash, _, listed, _⟩ := searchFork_some found
    exact mem_newestFirst.mp (List.mem_map_of_mem listed)

theorem searchFork_reaches
    {chain : Nat → BlockHash}
    (depth : Nat)
    (kept : List (Nat × BlockHash))
    (answers :
      ∀ entry ∈ kept, ∀ depth,
        chainHash depth entry.1 = .ok (chain entry.1))
    (agrees :
      ∀ entry ∈ kept, chain entry.1 = entry.2 ↔ entry.1 ≤ forkHeight)
    (sorted : (kept.map Prod.fst).Pairwise (fun above below => below < above))
    (deep : depth = 0 → ∃ entry ∈ kept, forkHeight < entry.1) :
    searchFork chainHash depth kept = .ok (some forkHeight) ↔
      forkHeight ∈ kept.map Prod.fst := by
  induction kept generalizing depth with
  | nil =>
      constructor
      · intro impossible
        cases impossible
      · intro impossible
        cases impossible
  | cons newest below inductionHypothesis =>
      obtain ⟨height, hash⟩ := newest
      rw [List.map_cons, List.pairwise_cons] at sorted
      have answer := answers (height, hash) List.mem_cons_self depth
      have agree := agrees (height, hash) List.mem_cons_self
      dsimp only at answer agree
      rw [searchFork, answer]
      dsimp only
      rw [List.map_cons, List.mem_cons]
      by_cases reached : height ≤ forkHeight
      · rw [if_pos (agree.mpr reached)]
        have positive : depth > 0 := by
          by_contra zero
          obtain ⟨entry, member, above⟩ := deep (by omega)
          rcases List.mem_cons.mp member with rfl | later
          · dsimp only at above
            omega
          · have lower := sorted.1 entry.1 (List.mem_map_of_mem later)
            omega
        rw [if_pos positive]
        constructor
        · intro same
          cases same
          exact Or.inl rfl
        · rintro (rfl | later)
          · rfl
          · have lower := sorted.1 forkHeight later
            omega
      · rw [if_neg (fun same => reached (agree.mp same))]
        rw [inductionHypothesis (depth + 1)
          (fun entry member => answers entry (List.mem_cons_of_mem _ member))
          (fun entry member => agrees entry (List.mem_cons_of_mem _ member))
          sorted.2 (fun impossible => by omega)]
        constructor
        · exact Or.inr
        · rintro (rfl | later)
          · exact absurd (Nat.le_refl _) reached
          · exact later

theorem findFork_reaches
    {chain : Nat → BlockHash}
    (answers :
      ∀ height ∈ scanned, ∀ depth,
        chainHash depth height = .ok (chain height))
    (agrees :
      ∀ height hash, scanned[height]? = some hash →
        (chain height = hash ↔ height ≤ forkHeight))
    (replaced : ∃ height ∈ scanned, forkHeight < height) :
    findFork chainHash scanned = .ok (some forkHeight) ↔
      forkHeight ∈ scanned := by
  have stored :
      ∀ entry ∈ scanned.toList.reverse, scanned[entry.1]? = some entry.2 :=
    fun entry member =>
      Std.ExtTreeMap.mem_toList_iff_getElem?_eq_some.mp
        (List.mem_reverse.mp member)
  have nonempty : scanned.isEmpty = false := by
    obtain ⟨height, member, _⟩ := replaced
    rw [Std.ExtTreeMap.isEmpty_eq_false_iff]
    rintro rfl
    simp at member
  have search :=
    searchFork_reaches 0 scanned.toList.reverse
      (fun entry member depth =>
        answers entry.1
          (BTreeMap.mem_iff_getElem?.mpr ⟨_, stored entry member⟩) depth)
      (fun entry member => agrees entry.1 entry.2 (stored entry member))
      (by
        rw [List.map_reverse, Std.ExtTreeMap.map_fst_toList_eq_keys,
          List.pairwise_reverse]
        exact BTreeMap.keys_sorted scanned)
      (by
        intro _
        obtain ⟨height, member, above⟩ := replaced
        obtain ⟨entry, listed, rfl⟩ :=
          List.mem_map.mp (mem_newestFirst.mpr member)
        exact ⟨entry, listed, above⟩)
  rw [mem_newestFirst] at search
  unfold findFork
  rw [nonempty]
  exact search

/-- A wallet whose scans all resume, with the highest frontier it ever had. -/
inductive ResumedRun (birthday : Nat) : Nat → ScanStores → Prop where
  | fresh stores :
      stores.state.lastScannedHeight = none →
      stores.state.scanned = ∅ →
      stores.state.birthdayHeight = birthday →
      ResumedRun birthday 0 stores
  | scan {peak stores} (input : ScanInput) :
      ResumedRun birthday peak stores →
      input.start = stores.state.nextScanStart →
      ResumedRun birthday
        (peakAfter peak (input.after stores).state.receiveSide)
        (input.after stores)

theorem receiveSide_rollBack
    (forkHeight : Nat)
    (reorged : List BlockHash)
    (stores : ScanStores) :
    (stores.rollBack forkHeight reorged).state.receiveSide =
      (stores.state.rollBack forkHeight).receiveSide := by
  rw [ScanStores.rollBack, ScanState.receiveSide_persist]

theorem Windowed.rollBack
    (windowed : Windowed birthday peak state.receiveSide)
    {last forkHeight : Nat}
    (reached : state.lastScannedHeight = some last)
    (kept : forkHeight ∈ state.scanned) :
    Windowed birthday peak (state.rollBack forkHeight).receiveSide := by
  have inside := (windowed.window last reached forkHeight).mp kept
  have bounds := windowed.started last reached
  have member :
      ∀ height,
        height ∈ (state.rollBack forkHeight).scanned ↔
          height ≤ forkHeight ∧ height ∈ state.scanned := by
    intro height
    have left_ :
        (state.rollBack forkHeight).scanned[height]? =
          if height > forkHeight then none else state.scanned[height]? := by
      rw [ScanState.rollBack, ScanState.getElem?_scanned_dropBlockHashes]
      simp only [decide_eq_true_eq]
      rfl
    rw [BTreeMap.mem_iff_getElem?, left_, BTreeMap.mem_iff_getElem?]
    by_cases above : height > forkHeight
    · rw [if_pos above]
      constructor
      · rintro ⟨_, impossible⟩
        cases impossible
      · rintro ⟨low, _⟩
        omega
    · rw [if_neg above]
      exact ⟨fun found => ⟨by omega, found⟩, And.right⟩
  constructor
  · exact windowed.born
  · intro impossible
    cases impossible
  · intro last' known
    cases known
    exact ⟨inside.1, by omega, inside.2.1⟩
  · intro last' known height
    cases known
    refine (member height).trans ?_
    have old := windowed.window last reached height
    change _ ∧ height ∈ state.receiveSide.kept ↔ _
    rw [old]
    omega

theorem Windowed.resumes
    (windowed : Windowed birthday peak state.receiveSide) :
    Resumes birthday state.nextScanStart state.receiveSide := by
  unfold ScanState.nextScanStart
  constructor
  · intro unstarted
    have known : state.lastScannedHeight = none := unstarted
    rw [known]
    exact windowed.born
  · intro last reached
    have known : state.lastScannedHeight = some last := reached
    rw [known]

/-- A rollback to a fork that was found leaves a wallet that resumes there. -/
theorem Windowed.rolledBack
    {stores : ScanStores}
    (windowed : Windowed birthday peak stores.state.receiveSide)
    (kept : forkHeight ∈ stores.state.scanned)
    (reorged : List BlockHash)
    (start : Nat) :
    Windowed birthday peak
        (stores.rollBack forkHeight reorged).state.receiveSide ∧
      Resumes birthday (min start (forkHeight + 1))
        (stores.rollBack forkHeight reorged).state.receiveSide := by
  rw [receiveSide_rollBack]
  cases known : stores.state.lastScannedHeight with
  | none =>
      have empty := (windowed.unstarted known).1
      rw [show stores.state.scanned = ∅ from empty] at kept
      simp at kept
  | some last =>
      refine ⟨windowed.rollBack known kept, ?_, ?_⟩
      · intro impossible
        cases impossible
      · intro last' reached
        cases reached
        exact Nat.min_le_right _ _

theorem Windowed.scan
    {stores : ScanStores}
    (windowed : Windowed birthday peak stores.state.receiveSide)
    (resumed : input.start = stores.state.nextScanStart) :
    Windowed birthday
      (peakAfter peak (input.after stores).state.receiveSide)
      (input.after stores).state.receiveSide := by
  have resumes := windowed.resumes
  rw [← resumed] at resumes
  rcases input.after_cases stores with
    ⟨_, _, same⟩ | ⟨_, run⟩ | ⟨forkHeight, found, run⟩
  · rw [same, windowed.peakAfter_eq]
    exact windowed
  · rw [run]
    have begun :
        Windowed birthday peak
          (input.restamped stores).state.receiveSide :=
      windowed
    exact begun.passes resumes
  · rw [run]
    obtain ⟨rolled, starts⟩ :=
      windowed.rolledBack (findFork_mem found)
        (reorgedHashes stores.state.scanned forkHeight) input.start
    exact Windowed.passes rolled starts

theorem ResumedRun.windowed
    {stores : ScanStores}
    (run : ResumedRun birthday peak stores) :
    Windowed birthday peak stores.state.receiveSide := by
  induction run with
  | fresh stores unstarted empty born =>
      refine ⟨born, fun _ => ⟨empty, rfl⟩, ?_, ?_⟩
      · intro last reached
        cases unstarted.symm.trans reached
      · intro last reached
        cases unstarted.symm.trans reached
  | scan input _ resumed windowed =>
      exact windowed.scan resumed

/-- A scan recovers from a fork: it rolls back to it and starts above it. -/
def Recovers
    (script : ScanScript)
    (start forkHeight : Nat)
    (stores : ScanStores) : Prop :=
  handleReorg script start stores =
    .ok (min start (forkHeight + 1))
      (stores.rollBack forkHeight
        (reorgedHashes stores.state.scanned forkHeight))

/--
A reorg of fewer than `reorgDepth` blocks is recovered exactly where its fork
was scanned and is in the window below the highest frontier the wallet had.
-/
theorem shallow_reorg_recovered_iff
    {birthday peak : Nat}
    {stores : ScanStores}
    (run : ResumedRun birthday peak stores)
    {last forkHeight : Nat}
    (reached : stores.state.lastScannedHeight = some last)
    (replaced : forkHeight < last)
    (shallow : last ≤ forkHeight + (reorgDepth - 1))
    {script : ScanScript}
    {chain : Nat → BlockHash}
    (answers :
      ∀ height ∈ stores.state.scanned, ∀ depth,
        script.chainHash depth height = .ok (chain height))
    (agrees :
      ∀ height hash, stores.state.scanned[height]? = some hash →
        (chain height = hash ↔ height ≤ forkHeight)) :
    Recovers script stores.state.nextScanStart forkHeight stores ↔
      birthday ≤ forkHeight ∧ peak ≤ forkHeight + (reorgDepth - 1) := by
  have windowed := run.windowed
  obtain ⟨born, below, near⟩ := windowed.started last reached
  have newest : last ∈ stores.state.scanned :=
    (windowed.window last reached last).mpr ⟨born, near, Nat.le_refl _⟩
  have search := findFork_reaches answers agrees ⟨last, newest, replaced⟩
  have inWindow :
      forkHeight ∈ stores.state.scanned ↔
        birthday ≤ forkHeight ∧
          peak ≤ forkHeight + (reorgDepth - 1) := by
    refine (windowed.window last reached forkHeight).trans ?_
    unfold reorgDepth
    omega
  rw [← inWindow, ← search]
  constructor
  · intro recovers
    unfold Recovers handleReorg at recovers
    rw [get_bind_apply] at recovers
    have moved :=
      fun height reorged =>
        congrArg ReceiveSide.last (receiveSide_rollBack height reorged stores)
    cases found : findFork script.chainHash stores.state.scanned with
    | error reason =>
        rw [found] at recovers
        cases recovers
    | ok fork =>
        rw [found] at recovers
        cases fork with
        | none =>
            obtain ⟨_, same⟩ := EStateM.Result.ok.inj recovers
            have at_ := moved forkHeight
              (reorgedHashes stores.state.scanned forkHeight)
            rw [← same] at at_
            cases reached.symm.trans at_
            exact absurd replaced (Nat.lt_irrefl _)
        | some height =>
            obtain ⟨_, same⟩ := EStateM.Result.ok.inj recovers
            have here := moved height
              (reorgedHashes stores.state.scanned height)
            have at_ := moved forkHeight
              (reorgedHashes stores.state.scanned forkHeight)
            rw [← same] at at_
            cases here.symm.trans at_
            rfl
  · intro found
    unfold Recovers handleReorg
    rw [get_bind_apply, found]
    rfl

namespace ResumedRun

open ScanRun

theorem scanned_once :
    ResumedRun 10
      (peakAfter 0
        ((sampleScan 10).after sampleWallet).state.receiveSide)
      ((sampleScan 10).after sampleWallet) :=
  .scan (sampleScan 10) (.fresh sampleWallet rfl rfl rfl) rfl

theorem scanned_twice :
    ResumedRun 10
      (peakAfter
        (peakAfter 0
          ((sampleScan 10).after sampleWallet).state.receiveSide)
        ((sampleScan 11).after
          ((sampleScan 10).after sampleWallet)).state.receiveSide)
      ((sampleScan 11).after ((sampleScan 10).after sampleWallet)) :=
  .scan (sampleScan 11) scanned_once (by decide +kernel)

def answering (chain : Nat → BlockHash) : ScanScript where
  times _ := none
  chainHash _ height := .ok (chain height)
  arrivals := []
  stopAtEnd := false
  sweep := unanswered

/-- A fork right below the first scanned block is not found. -/
theorem first_block_reorg_not_recovered :
    ¬ ∀ birthday peak stores,
        ResumedRun birthday peak stores →
        ∀ last forkHeight, stores.state.lastScannedHeight = some last →
          1 ≤ birthday → birthday - 1 ≤ forkHeight → forkHeight < last →
          last ≤ forkHeight + (reorgDepth - 1) →
          ∀ (script : ScanScript) (chain : Nat → BlockHash),
            (∀ height ∈ stores.state.scanned, ∀ depth,
              script.chainHash depth height = .ok (chain height)) →
            (∀ height hash, stores.state.scanned[height]? = some hash →
              (chain height = hash ↔ height ≤ forkHeight)) →
            Recovers script stores.state.nextScanStart forkHeight stores := by
  intro always
  have agrees :
      ∀ (height : Nat) (hash : BlockHash),
        ((sampleScan 10).after sampleWallet).state.scanned[height]? =
            some hash →
          (0 = hash ↔ height ≤ 9) := by
    intro height hash found
    have member := Std.ExtTreeMap.mem_toList_iff_getElem?_eq_some.mpr found
    rw [scanned_sampleScan, List.mem_singleton] at member
    cases member
    decide
  have recovers :=
    always 10 _ _ scanned_once 10 9 (by decide +kernel) (by decide)
      (by decide) (by decide) (by decide) (answering fun _ => 0) (fun _ => 0)
      (fun _ _ _ => rfl) agrees
  have found :
      findFork (answering fun _ => 0).chainHash
          ((sampleScan 10).after sampleWallet).state.scanned =
        .error (.reorgTooDeep 5) := by
    decide +kernel
  unfold Recovers handleReorg at recovers
  rw [get_bind_apply, found] at recovers
  cases recovers

/-- A fork at the first scanned block is. -/
theorem shallow_reorg_recovered_at_first :
    Recovers
      (answering fun height => if height ≤ 10 then sampleHash height else 0)
      ((sampleScan 11).after
        ((sampleScan 10).after sampleWallet)).state.nextScanStart
      10 ((sampleScan 11).after ((sampleScan 10).after sampleWallet)) := by
  have reached :
      ((sampleScan 11).after
          ((sampleScan 10).after sampleWallet)).state.lastScannedHeight =
        some 11 := by
    decide +kernel
  refine (shallow_reorg_recovered_iff scanned_twice reached
    (by decide) (by decide) (fun _ _ _ => rfl) ?_).mpr
    ⟨by decide, by decide +kernel⟩
  intro height hash found
  have known :
      ((sampleScan 11).after
          ((sampleScan 10).after sampleWallet)).state.scanned.toList =
        [(10, sampleHash 10), (11, sampleHash 11)] := by
    decide +kernel
  have member := Std.ExtTreeMap.mem_toList_iff_getElem?_eq_some.mpr found
  rw [known] at member
  rcases List.mem_cons.mp member with first | second
  · cases first
    decide
  · cases List.mem_singleton.mp second
    decide

end ResumedRun

end Bwk
