import Bwk.SpScanRules

namespace Bwk

/-!
# The receive pass, block by block

Which blocks a receive pass commits, what recording the frontier leaves of the
kept hashes, and what holds of the collector and of the stores together while
the blocks arrive.
-/

/-- The blocks a receive pass commits: those before a failure or a stop. -/
def committedBlocks (start stop : Nat) : List Arrival → List BlockOutcome
  | [] => []
  | arrival :: later =>
      match arrival.outcome with
      | .error _ => []
      | .ok block =>
          if block.height < start ∨ stop < block.height then
            []
          else if arrival.stop then
            [block]
          else
            block :: committedBlocks start stop later

variable {start stop : Nat}

theorem mem_committedBlocks
    {arrivals : List Arrival}
    {block : BlockOutcome}
    (committed : block ∈ committedBlocks start stop arrivals) :
    (∃ arrival ∈ arrivals, arrival.outcome = .ok block) ∧
      start ≤ block.height ∧ block.height ≤ stop := by
  induction arrivals with
  | nil =>
      cases committed
  | cons arrival later inductionHypothesis =>
      rw [committedBlocks] at committed
      cases outcome : arrival.outcome with
      | error reason =>
          rw [outcome] at committed
          cases committed
      | ok first =>
          rw [outcome] at committed
          dsimp only at committed
          by_cases outside : first.height < start ∨ stop < first.height
          · rw [if_pos outside] at committed
            cases committed
          · rw [if_neg outside] at committed
            rw [not_or, Nat.not_lt, Nat.not_lt] at outside
            have here :
                block = first →
                  (∃ arrival' ∈ arrival :: later,
                    arrival'.outcome = .ok block) ∧
                    start ≤ block.height ∧ block.height ≤ stop := by
              rintro rfl
              exact ⟨⟨arrival, List.mem_cons_self, outcome⟩, outside⟩
            by_cases stops : arrival.stop = true
            · rw [if_pos stops, List.mem_singleton] at committed
              exact here committed
            · rw [if_neg stops, List.mem_cons] at committed
              rcases committed with first | further
              · exact here first
              · obtain ⟨⟨source, listed, known⟩, inside⟩ :=
                  inductionHypothesis further
                exact ⟨⟨source, List.mem_cons_of_mem _ listed, known⟩, inside⟩

namespace ScanState

/-- The first height above the receive frontier. -/
def unscanned (state : ScanState) : Nat :=
  match state.lastScannedHeight with
  | some last => last + 1
  | none => 0

theorem unscanned_none
    {state : ScanState}
    (unstarted : state.lastScannedHeight = none) :
    state.unscanned = 0 := by
  rw [unscanned, unstarted]

theorem unscanned_some
    {state : ScanState}
    {last : Nat}
    (reached : state.lastScannedHeight = some last) :
    state.unscanned = last + 1 := by
  rw [unscanned, reached]

theorem above_iff (state : ScanState) (height : Nat) :
    state.lastScannedHeight.all (fun last => height > last) = true ↔
      state.unscanned ≤ height := by
  unfold unscanned
  cases state.lastScannedHeight with
  | none =>
      simp
  | some last =>
      simp only [Option.all_some, decide_eq_true_eq]
      exact Iff.rfl

variable {hashes : BTreeMap Nat BlockHash} (state : ScanState)

@[simp] theorem getElem?_scanned_dropBlockHashes
    (drop : Nat → Bool)
    (height : Nat) :
    (state.dropBlockHashes drop).scanned[height]? =
      if drop height then none else state.scanned[height]? := by
  have shape :
      (state.dropBlockHashes drop).scanned =
        BTreeMap.eraseAll state.scanned (state.scanned.keys.filter drop) :=
    RamStore.cache_removeAll ..
  rw [shape, BTreeMap.getElem?_eraseAll]
  by_cases dropped : drop height = true
  · cases kept : state.scanned[height]? with
    | none =>
        simp
    | some hash =>
        have member : height ∈ state.scanned :=
          BTreeMap.mem_iff_getElem?.mpr ⟨hash, kept⟩
        simp [dropped, member]
  · simp [dropped]

theorem getElem?_scanned_advanceFrontier
    {height : Nat}
    (blockHash : BlockHash)
    (above : state.unscanned ≤ height)
    (query : Nat) :
    (state.advanceFrontier height blockHash).scanned[query]? =
      if query = height then some blockHash
      else if query + reorgDepth < height + 1 then none
      else state.scanned[query]? := by
  rw [advanceFrontier, if_pos ((above_iff state height).mpr above),
    getElem?_scanned_dropBlockHashes]
  have inserted :
      ScanState.scanned
          { state with
            lastScannedHeight := some height
            blockHashes := state.blockHashes.insert height blockHash } =
        state.scanned.insert height blockHash :=
    RamStore.cache_insert ..
  rw [inserted, BTreeMap.getElem?_insert_eq]
  by_cases same : query = height
  · have kept : ¬ height < height + 1 - reorgDepth := by
      unfold reorgDepth
      omega
    simp [same, kept]
  · have dropped :
        query < height + 1 - reorgDepth ↔ query + reorgDepth < height + 1 := by
      omega
    simp [same, Ne.symm same, dropped]

/-- Move the receive frontier to a height whose hash may be known. -/
def advanceAt
    (hashes : BTreeMap Nat BlockHash)
    (state : ScanState)
    (height : Nat) : ScanState :=
  match hashes[height]? with
  | some hash => state.advanceFrontier height hash
  | none => state

/-- Move the receive frontier to `tip`, over the hashes in the window. -/
def advanceTo
    (hashes : BTreeMap Nat BlockHash)
    (start tip : Nat)
    (state : ScanState) : ScanState :=
  let lowest := max start (tip + 1 - reorgDepth)
  (List.range' lowest (tip + 1 - lowest)).foldl (advanceAt hashes) state

/-- What moving over a window of known hashes leaves. -/
structure Advanced
    (hashes : BTreeMap Nat BlockHash)
    (lowest next : Nat)
    (before after : ScanState) : Prop where
  last :
    after.lastScannedHeight =
      if lowest < next ∧ before.unscanned < next then
        some (next - 1)
      else
        before.lastScannedHeight
  kept :
    ∀ height : Nat,
      after.scanned[height]? =
        if before.unscanned ≤ height ∧ lowest ≤ height ∧ height < next then
          hashes[height]?
        else if
            lowest < next ∧ before.unscanned < next ∧
              height + reorgDepth < next then
          none
        else
          before.scanned[height]?
  spend : after.lastSpendHeight = before.lastSpendHeight
  birthday : after.birthdayHeight = before.birthdayHeight

theorem Advanced.step
    {lowest next : Nat}
    {before after : ScanState}
    (advanced : Advanced hashes lowest next before after)
    (low : lowest ≤ next)
    (narrow : next < lowest + reorgDepth)
    {hash : BlockHash}
    (known : hashes[next]? = some hash) :
    Advanced hashes lowest (next + 1) before (advanceAt hashes after next) := by
  have shape : advanceAt hashes after next = after.advanceFrontier next hash := by
    rw [advanceAt, known]
  rw [shape]
  have same : after.unscanned ≤ next ↔ before.unscanned ≤ next := by
    by_cases moved : lowest < next ∧ before.unscanned < next
    · have reached : after.unscanned = next := by
        rw [unscanned, advanced.last, if_pos moved]
        dsimp only
        omega
      omega
    · have stayed : after.unscanned = before.unscanned := by
        rw [unscanned, advanced.last, if_neg moved]
        rfl
      rw [stayed]
  by_cases above : before.unscanned ≤ next
  · have moves := (above_iff after next).mpr (same.mpr above)
    constructor
    · rw [if_pos ⟨by omega, by omega⟩, advanceFrontier, if_pos moves]
      rfl
    · intro height
      rw [getElem?_scanned_advanceFrontier _ _ (same.mpr above),
        advanced.kept]
      by_cases here : height = next
      · rw [if_pos here, if_pos ⟨by omega, by omega, by omega⟩, here, known]
      · rw [if_neg here]
        unfold reorgDepth at narrow ⊢
        split_ifs <;> first | rfl | omega
    · rw [lastSpendHeight_advanceFrontier, advanced.spend]
    · rw [advanceFrontier, if_pos moves]
      exact advanced.birthday
  · have stays : after.advanceFrontier next hash = after := by
      rw [advanceFrontier, if_neg]
      rw [above_iff, same]
      exact above
    rw [stays]
    constructor
    · rw [advanced.last]
      split_ifs <;> first | rfl | omega
    · intro height
      rw [advanced.kept]
      split_ifs <;> first | rfl | omega
    · exact advanced.spend
    · exact advanced.birthday

theorem advanced_advanceTo
    {start tip : Nat}
    (low : start ≤ tip)
    (filled : ∀ height, start ≤ height → height ≤ tip → height ∈ hashes) :
    Advanced hashes (max start (tip + 1 - reorgDepth)) (tip + 1) state
      (state.advanceTo hashes start tip) := by
  have window :
      ∀ count lowest, start ≤ lowest → lowest + count ≤ tip + 1 →
        count ≤ reorgDepth →
        Advanced hashes lowest (lowest + count) state
          ((List.range' lowest count).foldl (advanceAt hashes) state) := by
    intro count lowest from_ upto narrow
    induction count with
    | zero =>
        constructor
        · simp
        · intro height
          rw [if_neg (by omega), if_neg (by omega)]
          rfl
        · rfl
        · rfl
    | succ count inductionHypothesis =>
        have known : lowest + count ∈ hashes :=
          filled _ (by omega) (by omega)
        obtain ⟨hash, known⟩ := BTreeMap.mem_iff_getElem?.mp known
        rw [List.range'_1_concat, List.foldl_append]
        exact (inductionHypothesis (by omega) (by omega)).step (by omega)
          (by omega) known
  have whole :=
    window (tip + 1 - max start (tip + 1 - reorgDepth))
      (max start (tip + 1 - reorgDepth)) (Nat.le_max_left _ _)
      (by unfold reorgDepth; omega) (by unfold reorgDepth; omega)
  rwa [show
    max start (tip + 1 - reorgDepth) +
        (tip + 1 - max start (tip + 1 - reorgDepth)) = tip + 1 by
      unfold reorgDepth
      omega] at whole

end ScanState

variable {hashes : BTreeMap Nat BlockHash}

theorem advanceFrontiers_eq
    {heights : List Nat}
    (known : ∀ height ∈ heights, height ∈ hashes)
    (stores : ScanStores) :
    advanceFrontiers hashes heights stores =
      .ok ()
        { stores with
          state := heights.foldl (ScanState.advanceAt hashes) stores.state } := by
  induction heights generalizing stores with
  | nil =>
      rfl
  | cons height above inductionHypothesis =>
      obtain ⟨hash, found⟩ :=
        BTreeMap.mem_iff_getElem?.mp (known height List.mem_cons_self)
      have moved :
          ScanState.advanceAt hashes stores.state height =
            stores.state.advanceFrontier height hash := by
        rw [ScanState.advanceAt, found]
      rw [advanceFrontiers, found, List.foldl_cons, moved]
      exact inductionHypothesis
        (fun height member => known height (List.mem_cons_of_mem _ member)) _

theorem recordScanFrontier_eq
    {start tip : Nat}
    (filled : ∀ height, start ≤ height → height ≤ tip → height ∈ hashes)
    (stores : ScanStores) :
    recordScanFrontier start tip hashes stores =
      .ok ()
        { stores with
          state := (stores.state.advanceTo hashes start tip).persist } := by
  have known :
      ∀ height ∈
          List.range' (max start (tip + 1 - reorgDepth))
            (tip + 1 - max start (tip + 1 - reorgDepth)),
        height ∈ hashes := by
    intro height member
    rw [List.mem_range'_1] at member
    exact filled height (by omega) (by omega)
  rw [recordScanFrontier, bind_apply, advanceFrontiers_eq known]
  rfl

/-- The stores once the outputs of a block are recorded, if it has some. -/
def ScanStores.withFound
    (times : Nat → Option Nat)
    (block : BlockOutcome)
    (stores : ScanStores) : ScanStores :=
  if block.outs.isEmpty then
    stores
  else
    stores.recordOutputs times block.outs

/--
What holds of the committed blocks, of the collector and of the stores while
the blocks of a range arrive.
-/
structure ReceiveRules
    (times : Nat → Option Nat)
    (start stop : Nat)
    (inv : List BlockOutcome → Collector → ScanStores → Prop) : Prop where
  commit :
    ∀ committed collector stores block,
      start ≤ block.height → block.height ≤ stop →
      inv committed collector stores →
      inv (committed ++ [block]) (collector.commit start stop block)
        (stores.withFound times block)
  frontier :
    ∀ committed collector stores tip, collector.recvTip = some tip →
      start ≤ tip → tip ≤ stop →
      (∀ height, start ≤ height → height ≤ tip →
        height ∈ collector.hashes) →
      inv committed collector stores →
      inv committed collector
        { stores with
          state :=
            (stores.state.advanceTo collector.hashes start tip).persist }
  save :
    ∀ committed collector stores, inv committed collector stores →
      inv committed collector stores.saveState

def Disturbed (start stop : Nat) (arrivals : List Arrival) : Prop :=
  ∃ arrival ∈ arrivals,
    arrival.stop = true ∨
      ∀ block, arrival.outcome = .ok block →
        block.height < start ∨ stop < block.height

namespace ReceiveRules

variable
    {script : ScanScript}
    {start stop : Nat}
    {inv : List BlockOutcome → Collector → ScanStores → Prop}
    (rules : ReceiveRules script.times start stop inv)

include rules

variable {committed : List BlockOutcome} {collector : Collector}

theorem recordScanFrontier
    (sound : collector.Sound script.arrivals start stop)
    {tip : Nat}
    (reached : collector.recvTip = some tip) :
    Holds (inv committed collector)
      (recordScanFrontier start tip collector.hashes)
      (fun _ => inv committed collector) (fun _ _ => False) := by
  obtain ⟨low, high, filled⟩ := sound.tip tip reached
  intro stores holds
  rw [recordScanFrontier_eq filled]
  exact rules.frontier committed collector stores tip reached low high filled
    holds

theorem checkpointReceive
    (sound : collector.Sound script.arrivals start stop)
    (due : Bool) :
    Holds (inv committed collector) (checkpointReceive start collector due)
      (fun _ => inv committed collector) (fun _ _ => False) := by
  unfold Bwk.checkpointReceive
  split
  · next tip reached =>
      exact Holds.bind (rules.recordScanFrontier sound reached) (fun _ =>
        Holds.modify (fun stores holds => rules.save _ _ stores holds))
  · exact Holds.pure (fun _ holds => holds)

theorem interruptAt
    (sound : collector.Sound script.arrivals start stop) :
    Holds (inv committed collector) (interruptAt start collector)
      (fun _ => inv committed collector) (fun _ _ => False) := by
  have tip :
      Holds (inv committed collector) (recordTip start collector)
        (fun _ => inv committed collector) (fun _ _ => False) := by
    unfold recordTip
    split
    · next tip reached =>
        exact rules.recordScanFrontier sound reached
    · exact Holds.pure (fun _ holds => holds)
  exact Holds.bind tip (fun _ =>
    Holds.bind
      (Holds.modify (fun stores holds => rules.save _ _ stores holds))
      (fun _ => Holds.bindGet (fun _ _ => Holds.pure (fun _ holds => holds))))

theorem commitBlock
    (sound : collector.Sound script.arrivals start stop)
    {arrival : Arrival}
    {block : BlockOutcome}
    (listed : arrival ∈ script.arrivals)
    (outcome : arrival.outcome = .ok block) :
    Holds (inv committed collector)
      (commitBlock script.times start stop collector block arrival.checkpoint)
      (fun after stores =>
        inv (committed ++ [block]) after stores ∧
          after.Sound script.arrivals start stop ∧
          ¬ (block.height < start ∨ stop < block.height))
      (fun _ stores =>
        inv committed collector stores ∧
          (block.height < start ∨ stop < block.height)) := by
  refine Holds.ite
    (fun outside => Holds.throw (fun _ holds => ⟨holds, outside⟩))
    (fun inside => ?_)
  have within := inside
  rw [not_or, Nat.not_lt, Nat.not_lt] at within
  have found :
      Holds (inv committed collector) (recordFound script.times block.outs)
        (fun _ =>
          inv (committed ++ [block]) (collector.commit start stop block))
        (fun _ _ => False) := by
    have recorded :=
      fun stores holds =>
        rules.commit committed collector stores block within.1 within.2 holds
    unfold ScanStores.withFound at recorded
    refine Holds.ite (fun empty => Holds.pure ?_) (fun some_ => Holds.modify ?_)
    · simpa only [if_pos empty] using recorded
    · simpa only [if_neg some_] using recorded
  have after := sound.commit listed outcome
  refine Holds.move found (fun _ _ impossible => impossible.elim) (fun _ => ?_)
  refine Holds.move (rules.checkpointReceive after arrival.checkpoint)
    (fun _ _ impossible => impossible.elim) (fun _ => ?_)
  exact Holds.pure (fun _ holds => ⟨holds, after, inside⟩)

/-- However the collection ends, it committed the blocks it was to commit. -/
theorem collectBlocks
    {committed : List BlockOutcome}
    {collector : Collector}
    (sound : collector.Sound script.arrivals start stop)
    (later : List Arrival)
    (listed : ∀ arrival ∈ later, arrival ∈ script.arrivals) :
    Holds (inv committed collector)
      (collectBlocks script.times start stop collector later)
      (fun result stores =>
        inv (committed ++ committedBlocks start stop later) result.1 stores ∧
          result.1.Sound script.arrivals start stop ∧
          (result.2 ≠ none → Disturbed start stop later))
      (fun _ stores =>
        (∃ collector,
          inv (committed ++ committedBlocks start stop later) collector
            stores ∧
            collector.Sound script.arrivals start stop) ∧
          Disturbed start stop later) := by
  induction later generalizing committed collector with
  | nil =>
      refine Holds.pure (fun _ holds => ⟨?_, sound, fun stopped => ?_⟩)
      · rwa [committedBlocks, List.append_nil]
      · exact absurd rfl stopped
  | cons arrival later inductionHypothesis =>
      rw [Bwk.collectBlocks, committedBlocks]
      cases outcome : arrival.outcome with
      | error reason =>
          refine Holds.throw (fun _ holds => ⟨⟨collector, ?_, sound⟩, ?_⟩)
          · rwa [List.append_nil]
          · refine ⟨arrival, List.mem_cons_self, Or.inr ?_⟩
            intro block returned
            rw [outcome] at returned
            cases returned
      | ok block =>
          have here := listed arrival List.mem_cons_self
          dsimp only
          refine Holds.bind
            (Holds.conseq (rules.commitBlock sound here outcome)
              (fun _ holds => holds) (fun _ _ reached => reached) ?_) ?_
          · rintro _ stores ⟨holds, outside⟩
            refine
              ⟨⟨collector, ?_, sound⟩, arrival, List.mem_cons_self,
                Or.inr ?_⟩
            · rwa [if_pos outside, List.append_nil]
            · intro same returned
              rw [outcome] at returned
              cases returned
              exact outside
          · intro after
            refine Holds.assume (fun _ holds => holds.2) (fun known => ?_)
            refine Holds.weaken (inv (committed ++ [block]) after)
              (fun _ holds => holds.1) ?_
            rw [if_neg known.2]
            refine Holds.ite (fun stops => ?_) (fun runs => ?_)
            · rw [if_pos stops]
              refine Holds.move (rules.interruptAt known.1)
                (fun _ _ impossible => impossible.elim) (fun _ => ?_)
              refine Holds.pure (fun _ holds => ⟨holds, known.1, fun _ => ?_⟩)
              exact ⟨arrival, List.mem_cons_self, Or.inl stops⟩
            · rw [if_neg runs]
              have further :
                  ∀ {rest : List Arrival}, Disturbed start stop rest →
                    Disturbed start stop (arrival :: rest) := by
                rintro rest ⟨source, member, why⟩
                exact ⟨source, List.mem_cons_of_mem _ member, why⟩
              rw [List.append_cons committed block
                (committedBlocks start stop later)]
              refine Holds.conseq
                (inductionHypothesis known.1
                  (fun arrival member =>
                    listed arrival (List.mem_cons_of_mem _ member)))
                (fun _ holds => holds) ?_ ?_
              · rintro result stores ⟨holds, sound, stopped⟩
                exact ⟨holds, sound, fun some_ => further (stopped some_)⟩
              · rintro _ stores ⟨holds, disturbed⟩
                exact ⟨holds, further disturbed⟩

/-- However the receive pass ends, it committed the blocks it was to commit. -/
theorem processBlocks :
    Holds (inv [] ⟨∅, none⟩) (processBlocks script start stop)
      (fun outcome stores =>
        ∃ collector,
          inv (committedBlocks start stop script.arrivals) collector stores ∧
            collector.Sound script.arrivals start stop ∧
            (outcome ≠ .completed →
              Disturbed start stop script.arrivals ∨
                collector.recvTip ≠ some stop))
      (fun _ stores =>
        ∃ collector,
          inv (committedBlocks start stop script.arrivals) collector stores ∧
            collector.Sound script.arrivals start stop ∧
            (Disturbed start stop script.arrivals ∨
              collector.recvTip ≠ some stop)) := by
  refine Holds.bind
    (Holds.conseq
      (rules.collectBlocks Collector.sound_empty script.arrivals
        (fun _ member => member))
      (fun _ holds => holds) (fun _ _ reached => reached) ?_) ?_
  · rintro _ stores ⟨⟨collector, holds, sound⟩, disturbed⟩
    exact ⟨collector, holds, sound, Or.inl disturbed⟩
  · rintro ⟨collector, outcome⟩
    rw [List.nil_append]
    refine Holds.assume (fun _ holds => holds.2) (fun known => ?_)
    obtain ⟨sound, stopped⟩ := known
    refine Holds.weaken
      (inv (committedBlocks start stop script.arrivals) collector)
      (fun _ holds => holds.1) ?_
    cases outcome with
    | some outcome =>
        exact Holds.pure (fun _ holds =>
          ⟨collector, holds, sound, fun _ => Or.inl (stopped (by simp))⟩)
    | none =>
        refine Holds.ite (fun short => ?_) (fun complete => ?_)
        · refine Holds.ite (fun _ => ?_) (fun _ => Holds.throw
            (fun _ holds => ⟨collector, holds, sound, Or.inr short⟩))
          refine Holds.conseq (rules.interruptAt sound)
            (fun _ holds => holds) ?_ (fun _ _ impossible => impossible.elim)
          exact fun _ stores holds =>
            ⟨collector, holds, sound, fun _ => Or.inr short⟩
        · refine Holds.move
            (rules.recordScanFrontier sound (not_not.mp complete))
            (fun _ _ impossible => impossible.elim) (fun _ => ?_)
          refine Holds.bind
            (Holds.modify (fun stores holds => rules.save _ _ stores holds))
            (fun _ => Holds.pure (fun _ holds =>
              ⟨collector, holds, sound, ?_⟩))
          exact fun incomplete => absurd rfl incomplete

end ReceiveRules

/-- Every block of the range arrives, and nothing stops the pass. -/
structure ReceivesAll
    (start stop : Nat)
    (arrivals : List Arrival) : Prop where
  calm : ¬ Disturbed start stop arrivals
  complete :
    ∀ height, start ≤ height → height ≤ stop →
      ∃ arrival ∈ arrivals, ∃ block,
        arrival.outcome = .ok block ∧ block.height = height

theorem committed_of_calm
    {arrivals : List Arrival}
    (calm : ¬ Disturbed start stop arrivals)
    {arrival : Arrival}
    (listed : arrival ∈ arrivals)
    {block : BlockOutcome}
    (outcome : arrival.outcome = .ok block) :
    block ∈ committedBlocks start stop arrivals := by
  induction arrivals with
  | nil =>
      cases listed
  | cons first later inductionHypothesis =>
      have laterCalm : ¬ Disturbed start stop later := by
        rintro ⟨source, member, why⟩
        exact calm ⟨source, List.mem_cons_of_mem _ member, why⟩
      have runs : first.stop ≠ true := fun stops =>
        calm ⟨first, List.mem_cons_self, Or.inl stops⟩
      have inside :
          ∃ block, first.outcome = .ok block ∧
            ¬ (block.height < start ∨ stop < block.height) := by
        by_contra none_
        refine calm ⟨first, List.mem_cons_self, Or.inr ?_⟩
        intro block returned
        by_contra within
        exact none_ ⟨block, returned, within⟩
      obtain ⟨head, returned, within⟩ := inside
      rw [committedBlocks, returned]
      dsimp only
      rw [if_neg within, if_neg runs]
      rcases List.mem_cons.mp listed with rfl | further
      · rw [outcome] at returned
        cases returned
        exact List.mem_cons_self
      · exact List.mem_cons_of_mem _ (inductionHypothesis laterCalm further)

theorem advanceTip_stuck
    {fuel next : Nat}
    (tip : Option Nat)
    (enough : stop < next + fuel)
    (follows : Collector.next ⟨hashes, tip⟩ start = next) :
    ∀ beyond,
      Collector.next ⟨hashes, advanceTip hashes stop fuel next tip⟩ start =
        beyond →
      beyond ≤ stop → beyond ∉ hashes := by
  induction fuel generalizing next tip with
  | zero =>
      intro beyond reached within
      rw [advanceTip, follows] at reached
      omega
  | succ fuel inductionHypothesis =>
      rw [advanceTip]
      by_cases more : next ≤ stop ∧ next ∈ hashes
      · rw [if_pos more]
        exact inductionHypothesis (some next) (by omega) rfl
      · rw [if_neg more]
        intro beyond reached within present
        rw [follows] at reached
        subst reached
        exact more ⟨within, present⟩

/-- The collector has every committed hash, and its tip is as far as it goes. -/
def Collector.Caught
    (start stop : Nat)
    (committed : List BlockOutcome)
    (collector : Collector) : Prop :=
  (∀ block ∈ committed, block.height ∈ collector.hashes) ∧
    ∀ beyond, collector.next start = beyond → beyond ≤ stop →
      beyond ∉ collector.hashes

theorem receiveRules_caught
    (times : Nat → Option Nat)
    (start stop : Nat) :
    ReceiveRules times start stop
      (fun committed collector _ =>
        collector.Caught start stop committed) where
  commit := by
    rintro committed collector _ block _ _ ⟨listed, _⟩
    refine ⟨?_, advanceTip_stuck collector.recvTip (by omega) rfl⟩
    intro other member
    rw [Collector.commit, Std.ExtTreeMap.mem_insert]
    rcases List.mem_append.mp member with earlier | last
    · exact Or.inr (listed other earlier)
    · rw [List.mem_singleton.mp last]
      exact Or.inl Std.ReflCmp.compare_self
  frontier := fun _ _ _ _ _ _ _ _ holds => holds
  save := fun _ _ _ holds => holds

theorem processBlocks_completes
    {script : ScanScript}
    (range : start ≤ stop)
    (receives : ReceivesAll start stop script.arrivals) :
    Holds (fun _ => True) (processBlocks script start stop)
      (fun outcome _ => outcome = .completed) (fun _ _ => False) := by
  have reaches :
      ∀ collector : Collector,
        collector.Caught start stop
          (committedBlocks start stop script.arrivals) →
        collector.Sound script.arrivals start stop →
        collector.recvTip = some stop := by
    rintro collector ⟨listed, stuck⟩ sound
    have beyond : stop < collector.next start := by
      by_contra within
      have low : start ≤ collector.next start := by
        unfold Collector.next
        cases known : collector.recvTip with
        | none =>
            exact Nat.le_refl _
        | some tip =>
            have := (sound.tip tip known).1
            dsimp only
            omega
      obtain ⟨arrival, member, block, outcome, height⟩ :=
        receives.complete _ low (by omega)
      refine stuck _ rfl (by omega) ?_
      rw [← height]
      exact listed block (committed_of_calm receives.calm member outcome)
    unfold Collector.next at beyond
    cases known : collector.recvTip with
    | none =>
        rw [known] at beyond
        dsimp only at beyond
        omega
    | some tip =>
        rw [known] at beyond
        have high := (sound.tip tip known).2.1
        dsimp only at beyond
        rw [show tip = stop by omega]
  have run := (receiveRules_caught script.times start stop).processBlocks
  refine Holds.conseq run ?_ ?_ ?_
  · intro _ _
    exact ⟨by simp, fun beyond _ _ => by simp⟩
  · rintro outcome _ ⟨collector, caught, sound, why⟩
    by_contra incomplete
    rcases why incomplete with disturbed | short
    · exact receives.calm disturbed
    · exact short (reaches collector caught sound)
  · rintro _ _ ⟨collector, caught, sound, disturbed | short⟩
    · exact receives.calm disturbed
    · exact short (reaches collector caught sound)

end Bwk
