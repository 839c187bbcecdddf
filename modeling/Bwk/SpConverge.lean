import Bwk.SpVouched

namespace Bwk

/-!
# Scans of a chain that moves

A wallet converges to the final chain as long as no fork search stops above a
height up to which the wallet holds one chain, and as long as a spend is only
marked by a block whose hash the receive pass keeps.
-/

/-- A scan in progress: it holds one chain up to `reach`, and above that the
hashes of the blocks it committed. -/
structure Following
    (tree : BlockTree)
    (final chain : Nat → BlockHash)
    (reach start : Nat)
    (committed : List BlockOutcome)
    (stores : ScanStores) : Prop where
  vouched : Vouched tree final chain reach stores
  next :
    ∀ last, stores.state.lastScannedHeight = some last → start ≤ last + 1
  recent :
    ∀ height hash, stores.state.scanned[height]? = some hash →
      reach < height →
      ∃ block ∈ committed, block.height = height ∧ block.hash = hash

structure Sown
    (tree : BlockTree)
    (chain : Nat → BlockHash)
    (reach : Nat)
    (block : BlockOutcome) : Prop where
  found :
    ∀ (outpoint : OutPoint) (output : OwnedOutput),
      block.outs[outpoint]? = some output →
      output.blockheight = some block.height ∧
        output.spendStatus = .unspent
  own :
    block.height ≤ reach →
      block.hash = chain block.height ∧
        ∀ outpoint ∈ block.outs, tree.pays block.hash outpoint

section Passes

variable
    {tree : BlockTree}
    {final chain : Nat → BlockHash}
    {reach start : Nat}
    {committed : List BlockOutcome}
    {stores : ScanStores}

theorem Following.congr
    (following : Following tree final chain reach start committed stores)
    {other : ScanStores}
    (sameCoins :
      ∀ outpoint, other.coins.get outpoint = stores.coins.get outpoint)
    (sameSide : other.state.receiveSide = stores.state.receiveSide) :
    Following tree final chain reach start committed other := by
  have sameLast :
      other.state.lastScannedHeight = stores.state.lastScannedHeight :=
    congrArg ReceiveSide.last sameSide
  have sameHashes : other.state.scanned = stores.state.scanned :=
    congrArg ReceiveSide.kept sameSide
  have vouched := following.vouched
  refine ⟨⟨?_, ?_, ?_, ?_⟩, ?_, ?_⟩
  · rw [sameSide]
    exact vouched.contiguous
  · rw [sameHashes]
    exact vouched.hashes
  · intro outpoint entry stored
    rw [sameCoins] at stored
    exact vouched.coins outpoint entry stored
  · intro outpoint entry stored
    rw [sameCoins] at stored
    unfold Traced
    rw [sameLast, sameHashes]
    exact vouched.spends outpoint entry stored
  · rw [sameLast]
    exact following.next
  · rw [sameHashes]
    exact following.recent

theorem Following.recordSpendFrontier
    (following : Following tree final chain reach start committed stores)
    (height : Nat) :
    Following tree final chain reach start committed
      (stores.recordSpendFrontier height) := by
  refine following.congr (fun _ => rfl) ?_
  rw [ScanStores.recordSpendFrontier, ScanState.receiveSide_persist,
    ScanState.receiveSide_advanceSpendFrontier]

theorem Following.saveState
    (following : Following tree final chain reach start committed stores) :
    Following tree final chain reach start committed stores.saveState :=
  following.congr (fun _ => SpCoinStore.get_persist ..)
    (ScanState.receiveSide_persist _)

theorem Following.withFound
    (following : Following tree final chain reach start committed stores)
    {block : BlockOutcome}
    (sown : Sown tree chain reach block)
    (times : Nat → Option Nat) :
    Following tree final chain reach start (committed ++ [block])
      (stores.withFound times block) := by
  have looked := get_coins_withFound times block stores
  have same : (stores.withFound times block).state = stores.state := by
    unfold ScanStores.withFound
    split <;> rfl
  have vouched := following.vouched
  refine ⟨⟨?_, ?_, ?_, ?_⟩, ?_, ?_⟩
  · rw [same]
    exact vouched.contiguous
  · rw [same]
    exact vouched.hashes
  · intro outpoint entry stored height confirmed within
    rw [looked] at stored
    cases paid : block.outs[outpoint]? with
    | none =>
        rw [paid] at stored
        exact vouched.coins outpoint entry stored height confirmed within
    | some output =>
        rw [paid] at stored
        cases stored
        have placed :
            SpCoinEntry.height
                ⟨outpoint, ScanStores.keepStatus (stores.coins.get outpoint)
                  output⟩ = output.blockheight := by
          unfold SpCoinEntry.height ScanStores.keepStatus
          cases stores.coins.get outpoint with
          | none =>
              rfl
          | some entry =>
              dsimp only
              split <;> rfl
        rw [placed, (sown.found outpoint output paid).1] at confirmed
        cases confirmed
        obtain ⟨here, pays⟩ := sown.own within
        rw [← here]
        exact pays outpoint (BTreeMap.mem_iff_getElem?.mpr ⟨output, paid⟩)
  · intro outpoint entry stored blockHash marked
    rw [same]
    rw [looked] at stored
    cases paid : block.outs[outpoint]? with
    | none =>
        rw [paid] at stored
        exact vouched.spends outpoint entry stored blockHash marked
    | some output =>
        rw [paid] at stored
        cases stored
        -- The mark was there before: the block's own output is unspent.
        have unspent := (sown.found outpoint output paid).2
        cases known : stores.coins.get outpoint with
        | none =>
            rw [known, SpCoinEntry.status, ScanStores.keepStatus, unspent]
              at marked
            cases marked
        | some entry =>
            rw [known, SpCoinEntry.status, ScanStores.keepStatus] at marked
            split at marked
            · exact vouched.spends outpoint entry known blockHash marked
            · rw [unspent] at marked
              cases marked
  · rw [same]
    exact following.next
  · rw [same]
    intro height hash kept above
    obtain ⟨source, member, there⟩ := following.recent height hash kept above
    exact ⟨source, List.mem_append_left _ member, there⟩

theorem Following.advanceTo
    (following : Following tree final chain reach start committed stores)
    (sown : ∀ block ∈ committed, Sown tree chain reach block)
    {hashes : BTreeMap Nat BlockHash}
    (taken :
      ∀ height hash, hashes[height]? = some hash →
        ∃ block ∈ committed, block.height = height ∧ block.hash = hash)
    {tip : Nat}
    (low : start ≤ tip)
    (filled : ∀ height, start ≤ height → height ≤ tip → height ∈ hashes) :
    Following tree final chain reach start committed
      { stores with
        state := (stores.state.advanceTo hashes start tip).persist } := by
  have advanced := ScanState.advanced_advanceTo stores.state low filled
  have vouched := following.vouched
  -- A kept hash is one that was kept, or a committed block's.
  have kept :
      ∀ height hash,
        (stores.state.advanceTo hashes start tip).scanned[height]? =
            some hash →
          stores.state.scanned[height]? = some hash ∨
            stores.state.unscanned ≤ height ∧
              hashes[height]? = some hash := by
    intro height hash stored
    rw [advanced.kept] at stored
    split at stored
    · next fresh =>
        exact Or.inr ⟨fresh.1, stored⟩
    · split at stored
      · cases stored
      · exact Or.inl stored
  have grows :
      ∀ last, stores.state.lastScannedHeight = some last →
        ∃ reached,
          (stores.state.advanceTo hashes start tip).lastScannedHeight =
              some reached ∧ last ≤ reached := by
    intro last known
    rw [advanced.last, known]
    split
    · next moved =>
        rw [ScanState.unscanned_some known] at moved
        exact ⟨tip, rfl, by omega⟩
    · exact ⟨last, rfl, Nat.le_refl _⟩
  suffices held :
      Following tree final chain reach start committed
        { stores with state := stores.state.advanceTo hashes start tip } from
    held.congr (fun _ => rfl) (ScanState.receiveSide_persist _)
  refine ⟨⟨?_, ?_, ?_, ?_⟩, ?_, ?_⟩
  · exact vouched.contiguous.advanceTo following.next low filled
  · intro height hash stored within
    rcases kept height hash stored with before | ⟨_, new⟩
    · exact vouched.hashes height hash before within
    · obtain ⟨block, member, rfl, rfl⟩ := taken height hash new
      exact ((sown block member).own within).1
  · exact vouched.coins
  · intro outpoint entry stored blockHash marked
    rcases vouched.spends outpoint entry stored blockHash marked with
      settled | ⟨height, last, known, bound, own, upTo⟩
    · exact Or.inl settled
    · obtain ⟨reached, there, high⟩ := grows last known
      refine Or.inr ⟨height, reached, there, by omega, ?_, upTo⟩
      intro hash present
      rcases kept height hash present with before | ⟨fresh, _⟩
      · exact own hash before
      · rw [ScanState.unscanned_some known] at fresh
        omega
  · intro last known
    change
      (stores.state.advanceTo hashes start tip).lastScannedHeight = some last
      at known
    rw [advanced.last] at known
    split at known
    · cases known
      omega
    · exact following.next last known
  · intro height hash stored above
    rcases kept height hash stored with before | ⟨_, new⟩
    · exact following.recent height hash before above
    · exact taken height hash new

theorem Following.recordInputs
    (following : Following tree final chain reach start committed stores)
    (times : Nat → Option Nat)
    {blockHash : BlockHash}
    {cursor : Nat}
    {spent : BTreeSet OutPoint}
    (marks :
      ∀ outpoint ∈ spent,
        tree.Spent final blockHash outpoint ∨
          (∀ block ∈ committed, block.height = cursor →
              block.hash = blockHash) ∧
            (cursor ≤ reach →
              chain cursor = blockHash ∧ tree.spends blockHash outpoint))
    {last : Nat}
    (reached : stores.state.lastScannedHeight = some last)
    (below : cursor ≤ last) :
    Following tree final chain reach start committed
      (stores.recordInputs times blockHash cursor spent) := by
  have same :
      (stores.recordInputs times blockHash cursor spent).state =
        stores.state := by
    simp
  have vouched := following.vouched
  refine ⟨⟨?_, ?_, ?_, ?_⟩, ?_, ?_⟩
  · rw [same]
    exact vouched.contiguous
  · rw [same]
    exact vouched.hashes
  · intro outpoint entry stored
    rw [ScanStores.get_coins_recordInputs] at stored
    split at stored
    · obtain ⟨before, known, rfl⟩ := Option.map_eq_some_iff.mp stored
      exact vouched.coins outpoint before known
    · exact vouched.coins outpoint entry stored
  · intro outpoint entry stored hash marked
    rw [same]
    rw [ScanStores.get_coins_recordInputs] at stored
    split at stored
    · next listed =>
        obtain ⟨before, known, rfl⟩ := Option.map_eq_some_iff.mp stored
        rw [SpCoinEntry.status_withStatus] at marked
        have here : hash = blockHash := by
          cases status : before.status with
          | unspent | spent | mined =>
              rw [status] at marked
              cases marked
              rfl
        rw [here]
        rcases marks outpoint listed with settled | ⟨committed_, own⟩
        · exact Or.inl settled
        · refine Or.inr ⟨cursor, last, reached, below, ?_, own⟩
          intro hash kept
          by_cases within : cursor ≤ reach
          · rw [vouched.hashes cursor hash kept within]
            exact (own within).1
          · obtain ⟨block, member, there, rfl⟩ :=
              following.recent cursor hash kept (by omega)
            exact committed_ block member there
    · exact vouched.spends outpoint entry stored hash marked
  · rw [same]
    exact following.next
  · rw [same]
    exact following.recent

theorem receiveRules_following
    (tree : BlockTree)
    (final chain : Nat → BlockHash)
    (reach : Nat)
    (times : Nat → Option Nat)
    (start stop : Nat) :
    ReceiveRules times start stop
      (fun committed collector stores =>
        (∀ height hash, collector.hashes[height]? = some hash →
          ∃ block ∈ committed, block.height = height ∧ block.hash = hash) ∧
        ((∀ block ∈ committed, Sown tree chain reach block) →
          Following tree final chain reach start committed stores)) where
  commit := by
    rintro committed collector stores block _ _ ⟨taken, follows⟩
    constructor
    · intro height hash found
      rw [Collector.commit, BTreeMap.getElem?_insert_eq] at found
      split at found
      · next same =>
          cases found
          exact ⟨block, by simp, same, rfl⟩
      · obtain ⟨source, member, there⟩ := taken height hash found
        exact ⟨source, List.mem_append_left _ member, there⟩
    · intro sown
      exact (follows (fun source member =>
        sown source (List.mem_append_left _ member))).withFound
          (sown block (by simp)) times
  frontier := by
    rintro committed collector stores tip _ low _ filled ⟨taken, follows⟩
    exact ⟨taken, fun sown => (follows sown).advanceTo sown taken low filled⟩
  save := by
    rintro committed collector stores ⟨taken, follows⟩
    exact ⟨taken, fun sown => (follows sown).saveState⟩

/-- The frontier has reached a height. -/
def ReceiveSide.Past (side : ReceiveSide) (height : Nat) : Prop :=
  ∃ last, side.last = some last ∧ height ≤ last

theorem interruptAt_interrupts
    (start : Nat)
    (collector : Collector) :
    Holds (fun _ => True) (interruptAt start collector)
      (fun outcome _ => outcome ≠ .completed) (fun _ _ => True) := by
  refine Holds.bind (Holds.trivial _) (fun _ => ?_)
  refine Holds.bind (Holds.trivial _) (fun _ => ?_)
  refine Holds.bindGet (fun stores _ => Holds.pure ?_)
  intro _ _ impossible
  cases impossible

theorem collectBlocks_interrupts
    (times : Nat → Option Nat)
    (start stop : Nat)
    (collector : Collector)
    (arrivals : List Arrival) :
    Holds (fun _ => True) (collectBlocks times start stop collector arrivals)
      (fun result _ => result.2 ≠ some .completed) (fun _ _ => True) := by
  induction arrivals generalizing collector with
  | nil =>
      exact Holds.pure (fun _ _ impossible => by cases impossible)
  | cons arrival later inductionHypothesis =>
      rw [collectBlocks]
      cases arrival.outcome with
      | error reason =>
          exact Holds.throw (fun _ _ => True.intro)
      | ok block =>
          refine Holds.bind (Holds.trivial _) (fun after => ?_)
          refine Holds.ite (fun _ => ?_) (fun _ => inductionHypothesis after)
          refine Holds.bind (interruptAt_interrupts start after)
            (fun outcome => Holds.pure ?_)
          intro _ stopped same
          cases same
          exact stopped rfl

/-- What a receive pass that completes leaves is what recording its frontier
leaves. -/
theorem processBlocks_completed
    (script : ScanScript)
    (start stop : Nat)
    {past : ScanStores → Prop}
    (recorded :
      ∀ collector : Collector, collector.Sound script.arrivals start stop →
        collector.recvTip = some stop → ∀ stores : ScanStores,
          past
            (ScanStores.saveState
              { stores with
                state :=
                  (stores.state.advanceTo collector.hashes start
                    stop).persist })) :
    Holds (fun _ => True) (processBlocks script start stop)
      (fun outcome stores => outcome = .completed → past stores)
      (fun _ _ => True) := by
  have rules :
      ReceiveRules script.times start stop (fun _ _ _ => True) :=
    ⟨fun _ _ _ _ _ _ _ => True.intro, fun _ _ _ _ _ _ _ _ _ => True.intro,
      fun _ _ _ _ => True.intro⟩
  refine Holds.bind
    (Holds.conseq
      (Holds.and
        (@ReceiveRules.collectBlocks script start stop _ rules [] ⟨∅, none⟩
          Collector.sound_empty script.arrivals (fun _ member => member))
        (collectBlocks_interrupts script.times start stop ⟨∅, none⟩
          script.arrivals))
      (fun _ _ => ⟨True.intro, True.intro⟩) (fun _ _ reached => reached)
      (fun _ _ _ => True.intro)) ?_
  rintro ⟨collector, outcome⟩
  refine Holds.assume (fun _ holds => holds) (fun known => ?_)
  obtain ⟨⟨_, sound, _⟩, incomplete⟩ := known
  cases outcome with
  | some outcome =>
      refine Holds.pure (fun _ _ completed => ?_)
      rw [completed] at incomplete
      exact absurd rfl incomplete
  | none =>
      refine Holds.ite (fun _ => ?_) (fun complete => ?_)
      · refine Holds.ite (fun _ => ?_) (fun _ => Holds.throw
          (fun _ _ => True.intro))
        exact Holds.conseq (interruptAt_interrupts start collector)
          (fun _ _ => True.intro)
          (fun _ _ stopped completed => absurd completed stopped)
          (fun _ _ _ => True.intro)
      · have reached := not_not.mp complete
        obtain ⟨_, _, filled⟩ := sound.tip stop reached
        intro stores _
        rw [bind_apply_ok (recordScanFrontier_eq filled stores)]
        exact fun _ => recorded collector sound reached stores

theorem processBlocks_past
    (script : ScanScript)
    (start stop : Nat) :
    Holds (fun _ => True) (processBlocks script start stop)
      (fun outcome stores =>
        outcome = .completed → stores.state.receiveSide.Past stop)
      (fun _ _ => True) := by
  refine processBlocks_completed script start stop
    (fun collector sound reached stores => ?_)
  obtain ⟨low, _, filled⟩ := sound.tip stop reached
  change
    ((stores.state.advanceTo collector.hashes start stop).persist
      ).persist.receiveSide.Past stop
  rw [ScanState.receiveSide_persist, ScanState.receiveSide_persist]
  by_cases above : stores.state.unscanned ≤ stop
  · exact ⟨stop, ScanState.lastScannedHeight_advanceTo low filled above,
      Nat.le_refl _⟩
  · rw [ScanState.receiveSide_advanceTo low filled above]
    cases known : stores.state.lastScannedHeight with
    | none =>
        rw [ScanState.unscanned_none known] at above
        omega
    | some last =>
        rw [ScanState.unscanned_some known] at above
        exact ⟨last, known, by omega⟩

end Passes

section Scan

variable
    {tree : BlockTree}
    {final chain : Nat → BlockHash}
    {reach : Nat}
    {input : ScanInput}

theorem processSpends_following
    {committed : List BlockOutcome}
    (marks : input.MarksFollow tree final chain reach committed) :
    Keeps
      (fun stores =>
        Following tree final chain reach input.start committed stores ∧
          stores.state.receiveSide.Past input.stop)
      (processSpends input.script input.start input.stop) := by
  have rules :
      ScanRules { input.script with arrivals := [] } input.start input.stop 0
        (fun stores =>
          Following tree final chain reach input.start committed stores ∧
            stores.state.receiveSide.Past input.stop) :=
    { resumes := fun _ _ => Nat.zero_le _
      outputs := by
        intro _ _ _ impossible
        cases impossible
      frontier := fun _ _ sound => sound.not_of_nil.elim
      inputs := by
        rintro stores request cursor watch blockHash spent answer _ high _
          ⟨following, last, reached, past⟩
        refine ⟨following.recordInputs _
          (marks request cursor watch blockHash spent answer) reached
          (by omega), ?_⟩
        rw [ScanStores.state_recordInputs]
        exact ⟨last, reached, past⟩
      spendFrontier := by
        rintro stores height ⟨following, past⟩
        refine ⟨following.recordSpendFrontier height, ?_⟩
        rwa [ScanStores.recordSpendFrontier, ScanState.receiveSide_persist,
          ScanState.receiveSide_advanceSpendFrontier]
      save := by
        rintro stores ⟨following, past⟩
        refine ⟨following.saveState, ?_⟩
        rwa [ScanStores.saveState, ScanState.receiveSide_persist] }
  exact rules.processSpends_keeps

theorem processBlocks_following
    (range : input.start ≤ input.stop)
    (sown : ∀ block ∈ input.delivered, Sown tree chain reach block) :
    Holds (Following tree final chain reach input.start [])
      (processBlocks input.script input.start input.stop)
      (fun outcome stores =>
        Following tree final chain reach input.start input.delivered stores ∧
          (outcome = .completed →
            stores.state.receiveSide.Past input.stop))
      (fun _ =>
        Following tree final chain reach input.start input.delivered) := by
  have delivered :
      input.delivered =
        committedBlocks input.start input.stop input.script.arrivals :=
    if_pos range
  have rules :=
    receiveRules_following tree final chain reach input.script.times
      input.start input.stop
  rw [delivered] at sown ⊢
  refine Holds.conseq
    (Holds.and rules.processBlocks
      (processBlocks_past input.script input.start input.stop)) ?_ ?_ ?_
  · intro stores following
    refine ⟨⟨fun height hash impossible => ?_, fun _ => following⟩, True.intro⟩
    simp at impossible
  · rintro outcome stores ⟨⟨_, ⟨_, follows⟩, _⟩, past⟩
    exact ⟨follows sown, past⟩
  · rintro _ stores ⟨⟨_, ⟨_, follows⟩, _⟩, _⟩
    exact follows sown

/-- A scan about to begin; without a frontier it has a block to receive. -/
def Beginning
    (tree : BlockTree)
    (final chain : Nat → BlockHash)
    (reach : Nat)
    (input : ScanInput)
    (stores : ScanStores) : Prop :=
  Following tree final chain reach input.start [] stores ∧
    (stores.state.receiveSide.last = none → input.start ≤ input.stop)

theorem startSpendFrontier_beginning :
    Holds (Beginning tree final chain reach input)
      (startSpendFrontier input.start)
      (fun _ => Beginning tree final chain reach input)
      (fun _ _ => False) := by
  refine Holds.bindGet (fun _ _ => Holds.ite (fun _ => ?_)
    (fun _ => Holds.pure (fun _ holds => holds)))
  rintro stores ⟨following, ranged⟩
  refine ⟨(following.recordSpendFrontier _).saveState, ?_⟩
  rwa [ScanStores.saveState, ScanState.receiveSide_persist,
    ScanStores.recordSpendFrontier, ScanState.receiveSide_persist,
    ScanState.receiveSide_advanceSpendFrontier]

variable {stores : ScanStores}

theorem Following.grown
    {start : Nat}
    (following : Following tree final chain reach start [] stores)
    (committed : List BlockOutcome) :
    Following tree final chain reach start committed stores where
  vouched := following.vouched
  next := following.next
  recent := by
    intro height hash kept above
    obtain ⟨_, impossible, _⟩ := following.recent height hash kept above
    cases impossible

theorem unforkedScan_following
    (beginning : Beginning tree final chain reach input stores)
    (sown : ∀ block ∈ input.delivered, Sown tree chain reach block)
    (marks : input.MarksFollow tree final chain reach input.delivered) :
    Following tree final chain reach input.start input.delivered
      (finalState (input.unforkedScan stores)) := by
  have sweeps :
      Holds
        (fun stores =>
          Following tree final chain reach input.start input.delivered
              stores ∧
            stores.state.receiveSide.Past input.stop)
        (processSpends input.script input.start input.stop)
        (fun _ =>
          Following tree final chain reach input.start input.delivered)
        (fun _ =>
          Following tree final chain reach input.start input.delivered) :=
    Holds.conseq (processSpends_following marks) (fun _ holds => holds)
      (fun _ _ holds => holds.1) (fun _ _ holds => holds.1)
  refine Holds.finalState ?_ stores beginning
  refine Holds.move startSpendFrontier_beginning
    (fun _ _ impossible => impossible.elim) (fun _ => ?_)
  refine Holds.bindGet (fun read _ => ?_)
  refine Holds.ite
    (fun _ => Holds.throw (fun _ holds => holds.1.grown input.delivered))
    (fun _ => ?_)
  refine Holds.ite (fun range => ?_) (fun sweepOnly => ?_)
  · refine Holds.bind
      (Holds.weaken _ (fun _ holds => holds.1)
        (processBlocks_following range sown)) (fun outcome => ?_)
    cases outcome with
    | completed =>
        exact Holds.weaken _ (fun _ holds => ⟨holds.1, holds.2 rfl⟩) sweeps
    | interrupted lastScanned lastSpend =>
        exact Holds.pure (fun _ holds => holds.1)
  · refine Holds.weaken _ ?_ sweeps
    rintro stores ⟨following, ranged⟩
    refine ⟨following.grown _, ?_⟩
    cases known : stores.state.lastScannedHeight with
    | none =>
        exact absurd (ranged known) sweepOnly
    | some last =>
        have gapless := following.next last known
        exact ⟨last, known, by omega⟩

theorem ScanInput.mem_delivered
    {block : BlockOutcome}
    (member : block ∈ input.delivered) :
    ∃ arrival ∈ input.script.arrivals, arrival.outcome = .ok block := by
  unfold delivered at member
  split at member
  · exact (mem_committedBlocks member).1
  · cases member

theorem Vouched.scan
    {upTo : Nat}
    {next : Nat → BlockHash}
    (vouched : Vouched tree final chain upTo stores)
    (chains : tree.chains chain)
    (nextChains : tree.chains next)
    (found : input.Found)
    (builds : input.BuildsOn tree stores upTo next reach)
    (follows : input.Follows tree stores final next reach)
    (searched :
      ∀ reason,
        findFork input.script.chainHash stores.state.scanned ≠
          .error reason) :
    Vouched tree final next reach (input.after stores) := by
  rcases input.after_cases stores with
    ⟨reason, failed, _⟩ | ⟨none_, run⟩ | ⟨forkHeight, fork, run⟩
  · exact absurd failed (searched reason)
  · have blocks : input.committed stores = input.delivered := by
      rw [ScanInput.committed, none_]
    obtain ⟨held, within⟩ :=
      vouched.unforked chains nextChains builds follows none_
    rw [run]
    have own := follows.blocks
    have marks := follows.marks
    rw [blocks] at own marks
    have beginning :
        Beginning tree final next reach input (input.restamped stores) := by
      refine ⟨⟨?_, builds.next, ?_⟩, builds.ranged⟩
      · exact ⟨held.contiguous, held.hashes, held.coins, held.spends⟩
      · intro height hash kept above
        have bound :=
          within height (BTreeMap.mem_iff_getElem?.mpr ⟨hash, kept⟩)
        omega
    refine (unforkedScan_following beginning ?_ marks).vouched
    intro block member
    obtain ⟨arrival, listed, outcome⟩ := ScanInput.mem_delivered member
    exact ⟨found arrival listed block outcome, own block member⟩
  · have blocks :
        input.committed stores =
          (input.startingAt (min input.start (forkHeight + 1))).delivered := by
      rw [ScanInput.committed, fork]
    obtain ⟨held, within⟩ :=
      vouched.forked chains nextChains builds follows fork
    rw [run]
    have own := follows.blocks
    have marks := follows.marks
    rw [blocks] at own marks
    have reached :
        (stores.rollBack forkHeight
            (reorgedHashes stores.state.scanned forkHeight)
          ).state.lastScannedHeight = some forkHeight :=
      ScanStores.lastScannedHeight_rollBack ..
    have beginning :
        Beginning tree final next reach
          (input.startingAt (min input.start (forkHeight + 1)))
          (input.restamped
            (stores.rollBack forkHeight
              (reorgedHashes stores.state.scanned forkHeight))) := by
      refine ⟨⟨?_, ?_, ?_⟩, ?_⟩
      · exact ⟨held.contiguous, held.hashes, held.coins, held.spends⟩
      · intro last known
        cases reached.symm.trans known
        exact Nat.min_le_right _ _
      · intro height hash kept above
        obtain ⟨last, known, bound⟩ :=
          held.contiguous.reached
            (BTreeMap.mem_iff_getElem?.mpr ⟨hash, kept⟩)
        cases reached.symm.trans known
        omega
      · intro impossible
        cases reached.symm.trans impossible
    refine (unforkedScan_following beginning ?_ marks).vouched
    intro block member
    obtain ⟨arrival, listed, outcome⟩ := ScanInput.mem_delivered member
    exact ⟨found arrival listed block outcome, own block member⟩

theorem FollowingRun.vouched
    {upTo : Nat}
    (run : FollowingRun tree final chain upTo stores) :
    tree.chains chain ∧ Vouched tree final chain upTo stores := by
  induction run with
  | fresh reach stores chains unstarted empty nothing =>
      refine ⟨chains, ⟨?_, ?_, ?_, ?_⟩, ?_, ?_, ?_⟩
      · exact fun _ => empty
      · intro last impossible
        cases unstarted.symm.trans impossible
      · intro last impossible
        cases unstarted.symm.trans impossible
      · intro last impossible
        cases unstarted.symm.trans impossible
      · intro height hash impossible
        rw [empty] at impossible
        simp at impossible
      · intro outpoint entry impossible
        rw [nothing] at impossible
        cases impossible
      · intro outpoint entry impossible
        rw [nothing] at impossible
        cases impossible
  | failed input reason _ failed inductionHypothesis =>
      rcases input.after_cases _ with
        ⟨_, _, same⟩ | ⟨none_, _⟩ | ⟨forkHeight, fork, _⟩
      · rw [same]
        exact inductionHypothesis
      · rw [failed] at none_
        cases none_
      · rw [failed] at fork
        cases fork
  | scan input reach _ nextChains found searched builds follows
      inductionHypothesis =>
      exact ⟨nextChains,
        inductionHypothesis.2.scan inductionHypothesis.1 nextChains found
          builds follows searched⟩

end Scan

theorem ScanInput.Sees.follows
    {tree : BlockTree}
    {chain : Nat → BlockHash}
    {input : ScanInput}
    (sees : input.Sees tree chain)
    {stores : ScanStores}
    {reach : Nat}
    (high : ∀ height, input.searchedTo stores = some height → height ≤ reach) :
    input.Follows tree stores chain chain reach where
  searched height stopped :=
    ⟨high height stopped, fun depth => sees.hashes depth height⟩
  blocks block member _ := by
    unfold committed at member
    split at member
    · cases member
    · obtain ⟨arrival, listed, outcome⟩ := mem_delivered member
      exact sees.blocks arrival listed block outcome
    · obtain ⟨arrival, listed, outcome⟩ := mem_delivered member
      exact sees.blocks arrival listed block outcome
  marks request cursor watch blockHash spent answer outpoint listed :=
    Or.inl (sees.spends request cursor watch blockHash spent answer outpoint
      listed)

/--
Scans that follow the chain they build on converge: a last scan whose answers
are the final chain's leaves nothing in the wallet but what that chain has.
-/
theorem moving_scans_converge
    {tree : BlockTree}
    {final chain : Nat → BlockHash}
    {upTo : Nat}
    {stores : ScanStores}
    (run : FollowingRun tree final chain upTo stores)
    (chains : tree.chains final)
    {input : ScanInput}
    (found : input.Found)
    (sees : input.Sees tree final)
    (builds : ∀ reach, input.BuildsOn tree stores upTo final reach)
    {outcome : SpScanOutcome}
    {after : ScanStores}
    (returned :
      processScan input.script input.start input.stop stores =
        .ok outcome after) :
    Converged tree final after := by
  obtain ⟨before, vouched⟩ := run.vouched
  have searched :
      ∀ reason,
        findFork input.script.chainHash stores.state.scanned ≠
          .error reason := by
    intro reason failed
    have stopped :
        handleReorg input.script input.start stores =
          .error reason stores := by
      rw [handleReorg, get_bind_apply, failed]
      rfl
    rw [processScan, bind_apply_error stopped] at returned
    cases returned
  have ends : input.after stores = after := by
    rw [ScanInput.after, returned]
    rfl
  -- The wallet holds the final chain up to every height.
  have holds : ∀ height, ∃ reach, height ≤ reach ∧
      Vouched tree final final reach after := by
    intro height
    refine ⟨max height ((input.searchedTo stores).getD 0),
      Nat.le_max_left _ _, ?_⟩
    rw [← ends]
    refine vouched.scan before chains found (builds _)
      (sees.follows fun stop stopped => ?_) searched
    rw [stopped]
    exact Nat.le_max_right _ _
  constructor
  · intro outpoint entry stored height confirmed
    obtain ⟨reach, high, held⟩ := holds height
    exact held.coins outpoint entry stored height confirmed high
  · intro outpoint entry stored blockHash marked
    obtain ⟨reach, high, held⟩ :=
      holds (after.state.lastScannedHeight.getD 0)
    rcases held.spends outpoint entry stored blockHash marked with
      settled | ⟨height, last, known, bound, _, own⟩
    · exact settled
    · rw [known] at high
      obtain ⟨here, spends⟩ := own (Nat.le_trans bound high)
      exact ⟨⟨height, here⟩, spends⟩
  · intro height hash kept
    obtain ⟨reach, high, held⟩ := holds height
    exact held.hashes height hash kept high

namespace ScanInput

structure Answered (tree : BlockTree) (input : ScanInput) : Prop where
  hashes :
    ∀ depth height answer,
      input.script.chainHash depth height = .ok answer →
        ∃ chain, tree.chains chain ∧ answer = chain height
  blocks :
    ∀ arrival ∈ input.script.arrivals, ∀ block, arrival.outcome = .ok block →
      ∃ chain, tree.chains chain ∧ block.hash = chain block.height ∧
        ∀ outpoint ∈ block.outs, tree.pays block.hash outpoint
  spends :
    ∀ request cursor watch blockHash spent,
      input.script.sweep.next request cursor watch = .ok (blockHash, spent) →
      ∃ chain, tree.chains chain ∧ blockHash = chain cursor ∧
        ∀ outpoint ∈ spent, tree.spends blockHash outpoint

end ScanInput

namespace FollowingRun

def keptHash (height : Nat) : BlockHash :=
  2 * height

/-- The chain that forks off above block 10. -/
def sideHash (height : Nat) : BlockHash :=
  if height ≤ 10 then 2 * height else 2 * height + 1

theorem keptHash_eq_sideHash_iff (height : Nat) :
    keptHash height = sideHash height ↔ height ≤ 10 := by
  unfold keptHash sideHash
  split
  · next low =>
      exact ⟨fun _ => low, fun _ => rfl⟩
  · next high =>
      have apart : 2 * height ≠ 2 * height + 1 := by omega
      exact ⟨fun same => absurd same apart, fun low => absurd low high⟩

/-- Block 10 pays the wallet; only block 11 of the side chain spends that. -/
def twoChains : BlockTree where
  pays hash outpoint := hash = keptHash 10 ∧ outpoint = ⟨1, 0⟩
  spends hash outpoint := hash = sideHash 11 ∧ outpoint = ⟨1, 0⟩
  chains chain := chain = keptHash ∨ chain = sideHash
  linked := by
    rintro chain other height (rfl | rfl) (rfl | rfl) same below under
    · rfl
    · rw [keptHash_eq_sideHash_iff] at same ⊢
      omega
    · rw [eq_comm, keptHash_eq_sideHash_iff] at same ⊢
      omega
    · rfl

/-- The payment of block 10. -/
def paidCoin : BTreeMap OutPoint OwnedOutput :=
  Std.ExtTreeMap.insert ∅ ⟨1, 0⟩ ⟨some 10, 1, 50, 7, none, .unspent⟩

def sideSweep : SweepScript where
  next _ cursor watch :=
    if cursor = 11 ∧ ⟨1, 0⟩ ∈ watch then
      .ok (sideHash 11, Std.ExtTreeSet.insert ∅ ⟨1, 0⟩)
    else
      .ok (sideHash cursor, ∅)
  watched := by
    intro _ _ _ _ _ answer outpoint listed
    split at answer
    · next found =>
        cases answer
        rw [Std.ExtTreeSet.mem_insert] at listed
        rcases listed with same | impossible
        · rw [← Std.LawfulEqCmp.eq_of_compare same]
          exact found.2
        · simp at impossible
    · cases answer
      simp at listed
  checkpoint _ := false
  stop _ := false

/-- A scan that receives blocks 10 and 11 of the kept chain. -/
def receivedScan (sweep : SweepScript) : ScanInput where
  script :=
    { times := fun _ => none
      chainHash := fun _ height => .ok (keptHash height)
      arrivals :=
        [⟨.ok ⟨10, keptHash 10, paidCoin⟩, false, false⟩,
          ⟨.ok ⟨11, keptHash 11, ∅⟩, false, false⟩]
      stopAtEnd := false
      sweep := sweep }
  start := 10
  stop := 11

def nextScan
    (chain : Nat → BlockHash)
    (blocks : List Nat)
    (sweep : SweepScript) : ScanInput where
  script :=
    { times := fun _ => none
      chainHash := fun _ height => .ok (chain height)
      arrivals :=
        blocks.map fun height =>
          ⟨.ok ⟨height, chain height, ∅⟩, false, false⟩
      stopAtEnd := false
      sweep := sweep }
  start := 12
  stop := 12

theorem paidCoin_iff
    {outpoint : OutPoint}
    {output : OwnedOutput} :
    paidCoin[outpoint]? = some output ↔
      outpoint = ⟨1, 0⟩ ∧
        output = ⟨some 10, 1, 50, 7, none, .unspent⟩ := by
  rw [paidCoin, BTreeMap.getElem?_insert_eq]
  split
  · next same =>
      rw [Option.some.injEq]
      exact ⟨fun here => ⟨same.symm, here.symm⟩, fun both => both.2.symm⟩
  · next apart =>
      simp only [Std.ExtTreeMap.getElem?_empty]
      constructor
      · intro impossible
        cases impossible
      · rintro ⟨rfl, _⟩
        exact absurd rfl apart

theorem sideSweep_spends
    {request cursor : Nat}
    {watch spent : BTreeSet OutPoint}
    {blockHash : BlockHash}
    (answer : sideSweep.next request cursor watch = .ok (blockHash, spent)) :
    blockHash = sideHash cursor ∧
      ∀ outpoint ∈ spent, twoChains.spends blockHash outpoint := by
  unfold sideSweep at answer
  dsimp only at answer
  split at answer
  · next found =>
      cases answer
      refine ⟨by rw [found.1], ?_⟩
      intro outpoint listed
      rw [Std.ExtTreeSet.mem_insert] at listed
      rcases listed with same | impossible
      · exact ⟨rfl, (Std.LawfulEqCmp.eq_of_compare same).symm⟩
      · simp at impossible
  · cases answer
    refine ⟨rfl, ?_⟩
    intro outpoint impossible
    simp at impossible

theorem receivedScan_found (sweep : SweepScript) :
    (receivedScan sweep).Found := by
  intro arrival listed block outcome outpoint output paid
  rcases List.mem_cons.mp listed with rfl | later
  · cases outcome
    rw [(paidCoin_iff.mp paid).2]
    exact ⟨rfl, rfl⟩
  · cases List.mem_singleton.mp later
    cases outcome
    simp at paid

variable {sweep : SweepScript} {arrival : Arrival} {block : BlockOutcome}

theorem receivedScan_blocks
    (listed : arrival ∈ (receivedScan sweep).script.arrivals)
    (outcome : arrival.outcome = .ok block) :
    block.hash = keptHash block.height ∧
      ∀ outpoint ∈ block.outs, twoChains.pays block.hash outpoint := by
  rcases List.mem_cons.mp listed with rfl | later
  · cases outcome
    refine ⟨rfl, fun outpoint paid => ⟨rfl, ?_⟩⟩
    obtain ⟨output, stored⟩ := BTreeMap.mem_iff_getElem?.mp paid
    exact (paidCoin_iff.mp stored).1
  · cases List.mem_singleton.mp later
    cases outcome
    refine ⟨rfl, fun outpoint paid => ?_⟩
    simp at paid

theorem nextScan_blocks
    {chain : Nat → BlockHash}
    {blocks : List Nat}
    (listed : arrival ∈ (nextScan chain blocks sweep).script.arrivals)
    (outcome : arrival.outcome = .ok block) :
    block.hash = chain block.height ∧ block.outs = ∅ := by
  obtain ⟨height, _, rfl⟩ := List.mem_map.mp listed
  cases outcome
  exact ⟨rfl, rfl⟩

theorem nextScan_found
    (chain : Nat → BlockHash)
    (blocks : List Nat)
    (sweep : SweepScript) :
    (nextScan chain blocks sweep).Found := by
  intro arrival listed block outcome outpoint output paid
  rw [(nextScan_blocks listed outcome).2] at paid
  simp at paid

theorem nextScan_sees
    (chain : Nat → BlockHash)
    (blocks : List Nat)
    (spends :
      ∀ request cursor watch blockHash spent,
        sweep.next request cursor watch = .ok (blockHash, spent) →
        ∀ outpoint ∈ spent, twoChains.Spent chain blockHash outpoint) :
    (nextScan chain blocks sweep).Sees twoChains chain where
  hashes := by
    intro depth height answer answered
    cases answered
    rfl
  blocks := by
    intro arrival listed block outcome
    obtain ⟨here, nothing⟩ := nextScan_blocks listed outcome
    refine ⟨here, fun outpoint paid => ?_⟩
    rw [nothing] at paid
    simp at paid
  spends := spends

/-- The wallet whose two passes saw different chains, scanned once more. -/
def flipped : ScanStores :=
  (nextScan keptHash [12] ScanRun.unanswered).after
    ((receivedScan sideSweep).after ScanRun.sampleWallet)

/-- A sweep of another chain than the one received leaves its mark. -/
theorem flipped_sweep_leaves_mark :
    ¬ ∀ (tree : BlockTree) (final : Nat → BlockHash) (wallet : ScanStores)
        (earlier input : ScanInput) (forkHeight : Nat)
        (outcome : SpScanOutcome) (after : ScanStores),
        tree.chains final →
        (∀ chain other, tree.chains chain → tree.chains other →
          ∀ height ≤ forkHeight, chain height = other height) →
        ResumedRun 10 0 wallet →
        (∀ outpoint, wallet.coins.get outpoint = none) →
        earlier.start = wallet.state.nextScanStart →
        earlier.stop < forkHeight + reorgDepth →
        earlier.Found → earlier.Answered tree →
        input.start = (earlier.after wallet).state.nextScanStart →
        input.stop < forkHeight + reorgDepth →
        input.Found → input.Sees tree final →
        processScan input.script input.start input.stop
            (earlier.after wallet) = .ok outcome after →
        Converged tree final after := by
  intro always
  have shared :
      ∀ chain other, twoChains.chains chain → twoChains.chains other →
        ∀ height ≤ 10, chain height = other height := by
    rintro chain other (rfl | rfl) (rfl | rfl) height low
    · rfl
    · exact (keptHash_eq_sideHash_iff height).mpr low
    · exact ((keptHash_eq_sideHash_iff height).mpr low).symm
    · rfl
  have answered : (receivedScan sideSweep).Answered twoChains := by
    constructor
    · intro depth height answer returned
      cases returned
      exact ⟨keptHash, Or.inl rfl, rfl⟩
    · intro arrival listed block outcome
      obtain ⟨here, pays⟩ := receivedScan_blocks listed outcome
      exact ⟨keptHash, Or.inl rfl, here, pays⟩
    · intro request cursor watch blockHash spent answer
      obtain ⟨here, spends⟩ := sideSweep_spends answer
      exact ⟨sideHash, Or.inr rfl, here, spends⟩
  have marked :
      flipped.coins.get ⟨1, 0⟩ =
        some ⟨⟨1, 0⟩, ⟨some 10, 1, 50, 7, none, .mined (sideHash 11)⟩⟩ := by
    decide +kernel
  cases run :
      processScan (nextScan keptHash [12] ScanRun.unanswered).script 12 12
        ((receivedScan sideSweep).after ScanRun.sampleWallet) with
  | error reason after =>
      have completes :
          (match
            processScan (nextScan keptHash [12] ScanRun.unanswered).script 12
              12 ((receivedScan sideSweep).after ScanRun.sampleWallet) with
          | .ok _ _ => true
          | .error _ _ => false) = true := by
        decide +kernel
      rw [run] at completes
      cases completes
  | ok outcome after =>
      have converged :=
        always twoChains keptHash ScanRun.sampleWallet
          (receivedScan sideSweep) (nextScan keptHash [12] ScanRun.unanswered)
          10 outcome after (Or.inl rfl) shared (.fresh _ rfl rfl rfl)
          (fun _ => Std.ExtTreeMap.getElem?_empty) rfl (by decide)
          (receivedScan_found sideSweep) answered (by decide +kernel)
          (by decide) (nextScan_found _ _ _)
          (nextScan_sees keptHash [12] (fun _ _ _ _ _ impossible => by
            cases impossible)) run
      have ends : flipped = after := by
        rw [flipped, ScanInput.after]
        exact congrArg finalState run
      rw [ends] at marked
      obtain ⟨⟨height, same⟩, _⟩ :=
        converged.spends _ _ marked (sideHash 11) rfl
      have odd : 2 * height = 23 := same
      omega

/-- The wallet that received the kept chain. -/
def received : ScanStores :=
  (receivedScan ScanRun.unanswered).after ScanRun.sampleWallet

theorem received_run : FollowingRun twoChains sideHash keptHash 11 received := by
  have nothing :
      ∀ outpoint, ScanRun.sampleWallet.coins.get outpoint = none :=
    fun _ => Std.ExtTreeMap.getElem?_empty
  have unsearched :
      (receivedScan ScanRun.unanswered).searchedTo ScanRun.sampleWallet =
        none := by
    decide +kernel
  refine .scan (receivedScan ScanRun.unanswered) 11
    (.fresh 11 ScanRun.sampleWallet (Or.inl rfl) rfl rfl nothing) (Or.inl rfl)
    (receivedScan_found _) ?_ ⟨?_, ?_, ?_, ?_⟩ ⟨?_, ?_, ?_⟩
  · intro reason failed
    cases failed
  · intro _
    decide
  · intro last impossible
    cases impossible
  · intro height stopped
    rw [unsearched] at stopped
    cases stopped
  · intro _ outpoint entry impossible
    rw [nothing] at impossible
    cases impossible
  · intro height stopped
    rw [unsearched] at stopped
    cases stopped
  · intro block member _
    obtain ⟨arrival, listed, outcome⟩ := ScanInput.mem_delivered member
    exact receivedScan_blocks listed outcome
  · intro _ _ _ _ _ impossible
    cases impossible

/-- A wallet that received the kept chain converges to the side chain. -/
theorem moving_scans_converge_replaced :
    Converged twoChains sideHash
      ((nextScan sideHash [11, 12] sideSweep).after received) := by
  have fork :
      findFork (nextScan sideHash [11, 12] sideSweep).script.chainHash
          received.state.scanned =
        .ok (some 10) := by
    decide +kernel
  have last : received.state.lastScannedHeight = some 11 := by
    decide +kernel
  cases run :
      processScan (nextScan sideHash [11, 12] sideSweep).script 12 12
        received with
  | error reason after =>
      have completes :
          (match
            processScan (nextScan sideHash [11, 12] sideSweep).script 12 12
              received with
          | .ok _ _ => true
          | .error _ _ => false) = true := by
        decide +kernel
      rw [run] at completes
      cases completes
  | ok outcome after =>
      have ends :
          (nextScan sideHash [11, 12] sideSweep).after received = after := by
        rw [ScanInput.after]
        exact congrArg finalState run
      rw [ends]
      refine moving_scans_converge received_run (Or.inr rfl)
        (nextScan_found _ _ _)
        (nextScan_sees sideHash [11, 12] ?_) (fun reach => ⟨?_, ?_, ?_, ?_⟩)
        run
      · intro request cursor watch blockHash spent answer outpoint listed
        obtain ⟨here, spends⟩ := sideSweep_spends answer
        exact ⟨⟨cursor, here.symm⟩, spends outpoint listed⟩
      · intro impossible
        cases last.symm.trans impossible
      · intro height known
        cases last.symm.trans known
        decide
      · intro height stopped
        rw [ScanInput.searchedTo, fork] at stopped
        cases stopped
        decide
      · intro impossible
        cases fork.symm.trans impossible

end FollowingRun

end Bwk
